import Dialogue.Pattern.Expression

/-! How matches go on. The courses of an expression are listed for all places of a message at once, from
right to left; at each place they are what the expression does when it is run from left to right, with
what comes after it to go on with. A run that succeeds reads a part of the message. -/
namespace Dialogue.Expression

open Text

/-- How a match goes on from a place, given by the character before it and what is left there. -/
abbrev Next := Option Char → Text → Option Course

def runLiteral : Text → Next → Next
  | [], next, previous, t => next previous t
  | _ :: _, _, _, [] => none
  | d :: s, next, _, c :: t => if d = c then runLiteral s next (some c) t else none

def runWild (w : Wildcard) (next : Next) : Next
  | _, [] => none
  | _, c :: t => if w.admits c then (next (some c) t).or (runWild w next (some c) t) else none

def runSpace (next : Next) : Next
  | previous, [] => next previous []
  | previous, c :: t =>
    (if isSpace c then runSpace next (some c) t else none).or (next previous (c :: t))

def runGap (next : Next) : Next
  | previous, [] => if isBoundary previous none then next previous [] else none
  | previous, c :: t =>
    (if isSpace c then runSpace next (some c) t else none).or
      (if isBoundary previous (some c) then next previous (c :: t) else none)

def run : Expression → Next → Next
  | .literal s, next => runLiteral s next
  | .wild w, next => runWild w next
  | .gap, next => runGap next
  | .seq a b, next => a.run (b.run next)
  | .either a b, next => fun previous t =>
    (a.run (fun previous t => (next previous t).map (Course.skip b.captures)) previous t).or
      ((b.run next previous t).map (Course.skip a.captures))
  | .group false a, next => a.run next
  | .group true a, next => fun previous t =>
    (a.run (fun previous t => (next previous t).map (Course.close t)) previous t).map (Course.remember t)

/-- A match ends where the message does. -/
def done : Next := fun _ t => if t = [] then some {} else none

/-! ### One place after the other -/

def tabulate (next : Next) : Option Char → Text → Courses
  | previous, [] => [next previous []]
  | previous, c :: t => next previous (c :: t) :: tabulate next (some c) t

section Tabulating

variable {next next' : Next} {previous : Option Char} {t : Text}

@[simp] theorem here_tabulate : (tabulate next previous t).here = next previous t := by
  cases t <;> rfl

@[simp] theorem tail_tabulate {c : Char} :
    (tabulate next previous (c :: t)).tail = tabulate next (some c) t := rfl

theorem map_tabulate (f : Option Course → Option Course) :
    (tabulate next previous t).map f = tabulate (fun previous t => f (next previous t)) previous t := by
  induction t generalizing previous with
  | nil => rfl
  | cons c t ih => exact congrArg (f (next previous (c :: t)) :: ·) ih

theorem zipWith_tabulate (f : Option Course → Option Course → Option Course) :
    List.zipWith f (tabulate next previous t) (tabulate next' previous t) =
      tabulate (fun previous t => f (next previous t) (next' previous t)) previous t := by
  induction t generalizing previous with
  | nil => rfl
  | cons c t ih => exact congrArg (f (next previous (c :: t)) (next' previous (c :: t)) :: ·) ih

theorem atPlaces_tabulate (f : Text → Course → Course) :
    atPlaces f t (tabulate next previous t) =
      tabulate (fun previous t => (next previous t).map (f t)) previous t := by
  induction t generalizing previous with
  | nil => rfl
  | cons c t ih => exact congrArg ((next previous (c :: t)).map (f (c :: t)) :: ·) ih

theorem finish_tabulate (previous : Option Char) (t : Text) : finish t = tabulate done previous t := by
  induction t generalizing previous with
  | nil => rfl
  | cons c t ih => exact congrArg (none :: ·) (ih (some c))

theorem here_drop_tabulate (s : Text) :
    (if s.isPrefixOf t then Courses.here ((tabulate next previous t).drop s.length) else none) =
      runLiteral s next previous t := by
  induction s generalizing previous t with
  | nil => simp [runLiteral]
  | cons d s ih =>
    cases t with
    | nil => rfl
    | cons c t =>
      rw [runLiteral, List.isPrefixOf, List.length_cons, tabulate, List.drop_succ_cons]
      by_cases hd : d = c
      · rw [if_pos hd, ← ih, beq_iff_eq.mpr hd, Bool.true_and]
      · rw [if_neg hd, beq_eq_false_iff_ne.mpr hd, Bool.false_and]
        rfl

theorem literalCourses_tabulate (s : Text) :
    literalCourses s t (tabulate next previous t) = tabulate (runLiteral s next) previous t := by
  induction t generalizing previous with
  | nil => cases s <;> rfl
  | cons c t ih =>
    rw [literalCourses, here_drop_tabulate, tail_tabulate, ih]
    rfl

theorem wildCourses_tabulate (w : Wildcard) :
    wildCourses w t (tabulate next previous t) = tabulate (runWild w next) previous t := by
  induction t generalizing previous with
  | nil => rfl
  | cons c t ih =>
    rw [wildCourses, tail_tabulate, ih, tabulate, runWild, here_tabulate, here_tabulate]

theorem spaceCourses_tabulate :
    spaceCourses t (tabulate next previous t) = tabulate (runSpace next) previous t := by
  induction t generalizing previous with
  | nil => rfl
  | cons c t ih =>
    rw [spaceCourses, tail_tabulate, ih, here_tabulate, here_tabulate, tabulate, runSpace]

theorem gapCourses_tabulate :
    gapCourses previous t (tabulate next previous t) (tabulate (runSpace next) previous t) =
      tabulate (runGap next) previous t := by
  induction t generalizing previous with
  | nil => rfl
  | cons c t ih =>
    rw [gapCourses, tail_tabulate, tail_tabulate, ih, here_tabulate, here_tabulate, tabulate, runGap]

theorem courses_tabulate (e : Expression) (next : Next) (t : Text) :
    e.courses t (tabulate next none t) = tabulate (e.run next) none t := by
  induction e generalizing next with
  | literal s => exact literalCourses_tabulate s
  | wild w => exact wildCourses_tabulate w
  | gap => rw [courses, spaceCourses_tabulate, gapCourses_tabulate, run]
  | seq a b iha ihb => rw [courses, ihb, iha, run]
  | either a b iha ihb =>
    rw [courses, map_tabulate, iha, ihb, map_tabulate, zipWith_tabulate]
    rfl
  | group remember a ih =>
    cases remember with
    | false => exact ih next
    | true =>
      rw [courses, atPlaces_tabulate, ih, atPlaces_tabulate]
      rfl

/-- A match is a run from the start of the message to its end. -/
theorem match?_eq_run (e : Expression) (message : Text) :
    e.match? message = (e.run done none message).map fun c => c.spans.map Span.text := by
  rw [match?, finish_tabulate none, courses_tabulate, here_tabulate]

end Tabulating

/-! ### What is read -/

/-- An expression can stand for a text, with what it remembers of it. Parts that are not taken remember
empty texts. -/
inductive Reads : Expression → Text → List Text → Prop where
  | literal (t : Text) : Reads (.literal t) t []
  | wild {w : Wildcard} {v : Text} : v ≠ [] → (∀ c ∈ v, w.admits c = true) → Reads (.wild w) v []
  | gap {v : Text} : (∀ c ∈ v, isSpace c = true) → Reads .gap v []
  | seq {a b : Expression} {v u : Text} {xs ys : List Text} :
      Reads a v xs → Reads b u ys → Reads (.seq a b) (v ++ u) (xs ++ ys)
  | first {a b : Expression} {v : Text} {xs : List Text} :
      Reads a v xs → Reads (.either a b) v (xs ++ List.replicate b.captures [])
  | second {a b : Expression} {v : Text} {xs : List Text} :
      Reads b v xs → Reads (.either a b) v (List.replicate a.captures [] ++ xs)
  | group {a : Expression} {v : Text} {xs : List Text} : Reads a v xs → Reads (.group false a) v xs
  | remember {a : Expression} {v : Text} {xs : List Text} :
      Reads a v xs → Reads (.group true a) v (v :: xs)

/-- From a place on, an expression has read a part of what is left, and the match goes on behind it. -/
inductive Progress (e : Expression) (next : Next) : Text → Course → Prop where
  | read {part rest : Text} {previous : Option Char} {c later : Course} {spans : List Span} :
      next previous rest = some later → c.stops = later.stops → c.spans = spans ++ later.spans →
      e.Reads part (spans.map Span.text) → Progress e next (part ++ rest) c

section Running

variable {next : Next} {previous : Option Char} {t : Text} {c : Course}

theorem text_span (v u : Text) : Span.text { start := v ++ u, stop := u } = v := by
  simp [Span.text]

theorem of_runLiteral {s : Text} (h : runLiteral s next previous t = some c) :
    ∃ previous rest, t = s ++ rest ∧ next previous rest = some c := by
  induction s generalizing previous t with
  | nil => exact ⟨previous, t, rfl, h⟩
  | cons d s ih =>
    cases t with
    | nil => cases h
    | cons e t =>
      rw [runLiteral] at h
      split at h
      · rename_i hd
        obtain ⟨previous', rest, rfl, hnext⟩ := ih h
        exact ⟨previous', rest, by rw [hd]; rfl, hnext⟩
      · cases h

theorem of_runWild {w : Wildcard} (h : runWild w next previous t = some c) :
    ∃ v previous rest, t = v ++ rest ∧ v ≠ [] ∧ (∀ d ∈ v, w.admits d = true) ∧
      next previous rest = some c := by
  induction t generalizing previous with
  | nil => cases h
  | cons e t ih =>
    rw [runWild] at h
    split at h
    · rename_i hadmits
      rcases Option.or_eq_some_iff.mp h with hnext | ⟨-, hlater⟩
      · exact ⟨[e], some e, t, rfl, List.cons_ne_nil _ _, List.forall_mem_singleton.mpr hadmits, hnext⟩
      · obtain ⟨v, previous', rest, rfl, -, hv, hnext⟩ := ih hlater
        exact ⟨e :: v, previous', rest, rfl, List.cons_ne_nil _ _,
          List.forall_mem_cons.mpr ⟨hadmits, hv⟩, hnext⟩
    · cases h

theorem of_runSpace (h : runSpace next previous t = some c) :
    ∃ v previous rest, t = v ++ rest ∧ (∀ d ∈ v, isSpace d = true) ∧ next previous rest = some c := by
  induction t generalizing previous with
  | nil => exact ⟨[], previous, [], rfl, List.forall_mem_nil _, h⟩
  | cons e t ih =>
    rw [runSpace] at h
    rcases Option.or_eq_some_iff.mp h with hspace | ⟨-, hnext⟩
    · split at hspace
      · rename_i he
        obtain ⟨v, previous', rest, rfl, hv, hnext⟩ := ih hspace
        exact ⟨e :: v, previous', rest, rfl, List.forall_mem_cons.mpr ⟨he, hv⟩, hnext⟩
      · cases hspace
    · exact ⟨[], previous, e :: t, rfl, List.forall_mem_nil _, hnext⟩

theorem of_runGap (h : runGap next previous t = some c) :
    ∃ v previous rest, t = v ++ rest ∧ (∀ d ∈ v, isSpace d = true) ∧ next previous rest = some c := by
  cases t with
  | nil =>
    rw [runGap] at h
    split at h
    · exact ⟨[], previous, [], rfl, List.forall_mem_nil _, h⟩
    · cases h
  | cons e t =>
    rw [runGap] at h
    rcases Option.or_eq_some_iff.mp h with hspace | ⟨-, hboundary⟩
    · split at hspace
      · rename_i he
        obtain ⟨v, previous', rest, rfl, hv, hnext⟩ := of_runSpace hspace
        exact ⟨e :: v, previous', rest, rfl, List.forall_mem_cons.mpr ⟨he, hv⟩, hnext⟩
      · cases hspace
    · split at hboundary
      · exact ⟨[], previous, e :: t, rfl, List.forall_mem_nil _, hboundary⟩
      · cases hboundary

/-- A run that succeeds has read a part of the message, whatever comes after it. -/
theorem of_run (e : Expression) (h : e.run next previous t = some c) : Progress e next t c := by
  induction e generalizing next previous t c with
  | literal s =>
    obtain ⟨previous', rest, rfl, hnext⟩ := of_runLiteral h
    exact .read hnext rfl (List.nil_append _).symm (.literal s)
  | wild w =>
    obtain ⟨v, previous', rest, rfl, hne, hv, hnext⟩ := of_runWild h
    exact .read hnext rfl (List.nil_append _).symm (.wild hne hv)
  | gap =>
    obtain ⟨v, previous', rest, rfl, hv, hnext⟩ := of_runGap h
    exact .read hnext rfl (List.nil_append _).symm (.gap hv)
  | seq a b iha ihb =>
    obtain ⟨hlater, hstops, hspans, ha⟩ := iha h
    obtain ⟨hlast, hstops', hspans', hb⟩ := ihb hlater
    rw [← List.append_assoc]
    refine .read hlast (hstops.trans hstops') (by rw [hspans, hspans', List.append_assoc]) ?_
    rw [List.map_append]
    exact .seq ha hb
  | either a b iha ihb =>
    have htext : ∀ n, (List.replicate n ({} : Span)).map Span.text = List.replicate n [] :=
      fun n => List.map_replicate
    rcases Option.or_eq_some_iff.mp h with hfirst | ⟨-, hsecond⟩
    · obtain ⟨hlater, hstops, hspans, ha⟩ := iha hfirst
      obtain ⟨last, hlast, rfl⟩ := Option.map_eq_some_iff.mp hlater
      refine .read hlast hstops (hspans.trans (List.append_assoc _ _ _).symm) ?_
      rw [List.map_append, htext]
      exact .first ha
    · obtain ⟨course, hcourse, rfl⟩ := Option.map_eq_some_iff.mp hsecond
      obtain ⟨hlater, hstops, hspans, hb⟩ := ihb hcourse
      rename_i later xs
      have hspans : (course.skip a.captures).spans =
          List.replicate a.captures ({} : Span) ++ xs ++ later.spans := by
        rw [Course.skip, hspans, List.append_assoc]
      refine .read hlater hstops hspans ?_
      rw [List.map_append, htext]
      exact .second hb
  | group remember a ih =>
    cases remember with
    | false =>
      obtain ⟨hlater, hstops, hspans, ha⟩ := ih h
      exact .read hlater hstops hspans (.group ha)
    | true =>
      -- The place where the group ends is noted when the match goes on, and found again at its start.
      obtain ⟨course, hcourse, rfl⟩ := Option.map_eq_some_iff.mp h
      obtain ⟨hlater, hstops, hspans, ha⟩ := ih hcourse
      rename_i v rest previous' later xs
      obtain ⟨last, hlast, rfl⟩ := Option.map_eq_some_iff.mp hlater
      have hcourse : course.remember (v ++ rest) =
          { stops := last.stops,
            spans := { start := v ++ rest, stop := rest } :: (xs ++ last.spans) } := by
        rw [Course.remember, hstops, hspans]
        rfl
      rw [hcourse]
      have hreads : Reads (.group true a) v
          (({ start := v ++ rest, stop := rest } :: xs : List Span).map Span.text) := by
        rw [List.map_cons, text_span]
        exact .remember ha
      exact .read hlast rfl rfl hreads

theorem reads_of_match? {e : Expression} {message : Text} {stars : List Text}
    (h : e.match? message = some stars) : e.Reads message stars := by
  rw [match?_eq_run] at h
  obtain ⟨c, hrun, rfl⟩ := Option.map_eq_some_iff.mp h
  obtain ⟨hdone, -, hspans, hreads⟩ := of_run e hrun
  rw [done] at hdone
  split at hdone
  · rename_i hrest
    cases hdone
    rw [hrest, List.append_nil, hspans, List.append_nil]
    exact hreads
  · cases hdone

theorem Reads.length {e : Expression} {v : Text} {xs : List Text} (h : e.Reads v xs) :
    xs.length = e.captures := by
  induction h with
  | literal | wild | gap => rfl
  | seq _ _ iha ihb => rw [List.length_append, iha, ihb, captures]
  | first _ ih => rw [List.length_append, List.length_replicate, ih, captures]
  | second _ ih => rw [List.length_append, List.length_replicate, ih, captures]
  | group _ ih => exact ih
  | remember _ ih => rw [List.length_cons, ih, captures, if_pos rfl]

end Running

/-! ### How far a match gets -/

/-- A place of a message: the character before it, and what is left there. -/
structure Point where
  before : Option Char
  left : Text

/-- The place behind a part of what is left. -/
def Point.behind (part : Text) (previous : Option Char) (rest : Text) : Point :=
  ⟨part.getLast?.or previous, rest⟩

/-- From a place an expression can lead to another one, if it reads what lies between them. -/
def Leads : Expression → Point → Point → Prop
  | .literal s, x, y => x.left = s ++ y.left ∧ y = .behind s x.before y.left
  | .wild w, x, y => ∃ v, v ≠ [] ∧ (∀ c ∈ v, w.admits c = true) ∧ x.left = v ++ y.left ∧
      y = .behind v x.before y.left
  | .gap, x, y => isBoundary x.before x.left.head? = true ∧ y = x ∨
      ∃ v, v ≠ [] ∧ (∀ c ∈ v, isSpace c = true) ∧ x.left = v ++ y.left ∧ y = .behind v x.before y.left
  | .seq a b, x, y => ∃ z, a.Leads x z ∧ b.Leads z y
  | .either a b, x, y => a.Leads x y ∨ b.Leads x y
  | .group _ a, x, y => a.Leads x y

/-- A match goes on from a place. -/
def Next.Goes (next : Next) (x : Point) : Prop := (next x.before x.left).isSome = true

section Leading

variable {next : Next} {previous : Option Char} {t : Text}

theorem behind_cons (c : Char) (v : Text) (previous : Option Char) (rest : Text) :
    Point.behind (c :: v) previous rest = .behind v (some c) rest := by
  rw [Point.behind, Point.behind, List.getLast?_cons]
  cases v.getLast? <;> rfl

theorem isSome_runLiteral {s : Text} : (runLiteral s next previous t).isSome = true ↔
    ∃ rest, t = s ++ rest ∧ next.Goes (.behind s previous rest) := by
  induction s generalizing previous t with
  | nil => simp [runLiteral, Next.Goes, Point.behind]
  | cons d s ih =>
    cases t with
    | nil => exact iff_of_false Bool.false_ne_true fun ⟨_, h, _⟩ => nomatch h
    | cons c t =>
      rw [runLiteral]
      split
      · rename_i hd
        rw [ih, hd]
        simp only [behind_cons, List.cons_append, List.cons.injEq, true_and]
      · rename_i hd
        exact iff_of_false Bool.false_ne_true fun ⟨_, h, _⟩ => hd (List.cons.inj h).1.symm

theorem isSome_runSpace : (runSpace next previous t).isSome = true ↔
    ∃ v rest, (∀ c ∈ v, isSpace c = true) ∧ t = v ++ rest ∧ next.Goes (.behind v previous rest) := by
  induction t generalizing previous with
  | nil =>
    constructor
    · exact fun h => ⟨[], [], List.forall_mem_nil _, rfl, h⟩
    · rintro ⟨v, rest, -, hnil, hgoes⟩
      obtain ⟨rfl, rfl⟩ := List.append_eq_nil_iff.mp hnil.symm
      exact hgoes
  | cons c t ih =>
    rw [runSpace, Option.isSome_or, Bool.or_eq_true]
    constructor
    · rintro (hspace | hgoes)
      · split at hspace
        · rename_i hc
          obtain ⟨v, rest, hv, rfl, hgoes⟩ := ih.mp hspace
          exact ⟨c :: v, rest, List.forall_mem_cons.mpr ⟨hc, hv⟩, rfl, by rwa [behind_cons]⟩
        · cases hspace
      · exact ⟨[], c :: t, List.forall_mem_nil _, rfl, hgoes⟩
    · rintro ⟨_ | ⟨d, v⟩, rest, hv, ht, hgoes⟩
      · rw [ht]
        exact .inr hgoes
      · obtain ⟨rfl, rfl⟩ := List.cons.inj ht
        obtain ⟨hc, hv⟩ := List.forall_mem_cons.mp hv
        rw [if_pos hc, ih]
        exact .inl ⟨v, rest, hv, rfl, by rwa [← behind_cons]⟩

theorem isSome_runWild {w : Wildcard} : (runWild w next previous t).isSome = true ↔
    ∃ v rest, v ≠ [] ∧ (∀ c ∈ v, w.admits c = true) ∧ t = v ++ rest ∧
      next.Goes (.behind v previous rest) := by
  induction t generalizing previous with
  | nil =>
    refine iff_of_false Bool.false_ne_true ?_
    rintro ⟨v, rest, hne, -, hnil, -⟩
    exact hne (List.append_eq_nil_iff.mp hnil.symm).1
  | cons c t ih =>
    rw [runWild]
    constructor
    · intro h
      split at h
      · rename_i hc
        rw [Option.isSome_or, Bool.or_eq_true] at h
        rcases h with hgoes | hlater
        · exact ⟨[c], t, List.cons_ne_nil _ _, List.forall_mem_singleton.mpr hc, rfl, hgoes⟩
        · obtain ⟨v, rest, -, hv, rfl, hgoes⟩ := ih.mp hlater
          exact ⟨c :: v, rest, List.cons_ne_nil _ _, List.forall_mem_cons.mpr ⟨hc, hv⟩, rfl,
            by rwa [behind_cons]⟩
      · cases h
    · rintro ⟨_ | ⟨d, v⟩, rest, hne, hv, ht, hgoes⟩
      · exact absurd rfl hne
      · obtain ⟨rfl, rfl⟩ := List.cons.inj ht
        obtain ⟨hc, hv⟩ := List.forall_mem_cons.mp hv
        rw [if_pos hc, Option.isSome_or, Bool.or_eq_true]
        rw [behind_cons] at hgoes
        by_cases hend : v = []
        · subst hend
          exact .inl hgoes
        · exact .inr (ih.mpr ⟨v, rest, hend, hv, rfl, hgoes⟩)

theorem isSome_runGap : (runGap next previous t).isSome = true ↔
    ∃ y, gap.Leads ⟨previous, t⟩ y ∧ next.Goes y := by
  have hedge : (∃ y, (isBoundary previous t.head? = true ∧ y = ⟨previous, t⟩) ∧ next.Goes y) ↔
      (if isBoundary previous t.head? then next previous t else none).isSome = true := by
    split
    · rename_i hboundary
      simp only [hboundary, true_and, exists_eq_left]
      rfl
    · rename_i hboundary
      simp [hboundary]
  have hspaces : (∃ y, (∃ v, v ≠ [] ∧ (∀ c ∈ v, isSpace c = true) ∧ t = v ++ y.left ∧
      y = .behind v previous y.left) ∧ next.Goes y) ↔ ∃ c u, t = c :: u ∧ isSpace c = true ∧
        (runSpace next (some c) u).isSome = true := by
    constructor
    · rintro ⟨y, ⟨_ | ⟨c, v⟩, hne, hv, rfl, hy⟩, hgoes⟩
      · exact absurd rfl hne
      · obtain ⟨hc, hv⟩ := List.forall_mem_cons.mp hv
        rw [hy, behind_cons] at hgoes
        exact ⟨c, _, rfl, hc, isSome_runSpace.mpr ⟨v, _, hv, rfl, hgoes⟩⟩
    · rintro ⟨c, u, rfl, hc, hrun⟩
      obtain ⟨v, rest, hv, rfl, hgoes⟩ := isSome_runSpace.mp hrun
      rw [← behind_cons] at hgoes
      exact ⟨_, ⟨c :: v, List.cons_ne_nil _ _, List.forall_mem_cons.mpr ⟨hc, hv⟩, rfl, rfl⟩, hgoes⟩
  simp only [Leads, or_and_right, exists_or]
  rw [hedge, hspaces]
  cases t with
  | nil =>
    have hnone : ¬ ∃ c u, ([] : Text) = c :: u ∧ isSpace c = true ∧
        (runSpace next (some c) u).isSome = true := fun ⟨_, _, h, _⟩ => nomatch h
    rw [or_iff_left hnone]
    rfl
  | cons c t =>
    rw [runGap, Option.isSome_or, Bool.or_eq_true, or_comm]
    refine or_congr Iff.rfl ?_
    constructor
    · intro h
      split at h
      · exact ⟨c, t, rfl, ‹_›, h⟩
      · cases h
    · rintro ⟨d, u, heq, hd, hrun⟩
      obtain ⟨rfl, rfl⟩ := List.cons.inj heq
      rwa [if_pos hd]

theorem goes_map {f : Text → Course → Course} {y : Point} :
    Next.Goes (fun previous t => (next previous t).map (f t)) y ↔ next.Goes y := by
  rw [Next.Goes, Option.isSome_map]
  rfl

/-- A run succeeds just if the expression leads to a place from which the match goes on. -/
theorem goes_run (e : Expression) (x : Point) :
    Next.Goes (e.run next) x ↔ ∃ y, e.Leads x y ∧ next.Goes y := by
  induction e generalizing next x with
  | literal s =>
    refine isSome_runLiteral.trans ⟨?_, ?_⟩
    · rintro ⟨rest, ht, hgoes⟩
      exact ⟨_, ⟨ht, rfl⟩, hgoes⟩
    · rintro ⟨y, ⟨ht, hy⟩, hgoes⟩
      exact ⟨_, ht, by rwa [← hy]⟩
  | wild w =>
    refine isSome_runWild.trans ⟨?_, ?_⟩
    · rintro ⟨v, rest, hne, hv, ht, hgoes⟩
      exact ⟨_, ⟨v, hne, hv, ht, rfl⟩, hgoes⟩
    · rintro ⟨y, ⟨v, hne, hv, ht, hy⟩, hgoes⟩
      exact ⟨v, _, hne, hv, ht, by rwa [← hy]⟩
  | gap => exact isSome_runGap
  | seq a b iha ihb =>
    rw [run, iha]
    simp only [ihb, Leads]
    constructor
    · rintro ⟨z, hz, y, hy, hgoes⟩
      exact ⟨y, ⟨z, hz, hy⟩, hgoes⟩
    · rintro ⟨y, ⟨z, hz, hy⟩, hgoes⟩
      exact ⟨z, hz, y, hy, hgoes⟩
  | either a b iha ihb =>
    rw [Next.Goes, run, Option.isSome_or, Bool.or_eq_true, Option.isSome_map]
    refine (or_congr (iha x) (ihb x)).trans ?_
    simp only [goes_map (f := fun _ => Course.skip b.captures), Leads, or_and_right, exists_or]
  | group remember a ih =>
    cases remember with
    | false => exact ih x
    | true =>
      rw [Next.Goes, run, Option.isSome_map]
      refine (ih x).trans ?_
      simp only [goes_map (f := Course.close), Leads]

end Leading

end Dialogue.Expression
