import Dialogue.Proofs.Snapshot

/-! What a pattern captures. Every star is a stretch of the message that matched. -/
namespace Dialogue

/-- Everything that is remembered begins at a place of the message. -/
def Course.Within (t : Text) (c : Course) : Prop := ∀ s ∈ c.spans, s.start <:+ t

def Courses.Within (t : Text) (k : Courses) : Prop := ∀ c, some c ∈ k → c.Within t

theorem Courses.mem_of_here {k : Courses} {c : Course} (h : k.here = some c) : some c ∈ k := by
  cases k with
  | nil => cases h
  | cons first k =>
    obtain rfl : first = some c := h
    exact List.mem_cons_self

namespace Course

variable {t place : Text} {c : Course}

theorem within_skip (c : Course) (h : c.Within t) (n : Nat) : (c.skip n).Within t := by
  intro s hs
  rcases List.mem_append.mp hs with hskipped | hs
  · rw [List.eq_of_mem_replicate hskipped]
    exact List.nil_suffix
  · exact h s hs

theorem within_remember (hplace : place <:+ t) (h : c.Within t) : (c.remember place).Within t := by
  obtain ⟨stops, spans⟩ := c
  cases stops with
  | nil => exact h
  | cons stop stops =>
    intro s hs
    rcases List.mem_cons.mp hs with rfl | hs
    · exact hplace
    · exact h s hs

end Course

theorem Span.isInfix_text {s : Span} {t : Text} (h : s.start <:+ t) : s.text <:+: t :=
  (List.take_prefix _ _).isInfix.trans h.isInfix

namespace Expression

open Text

/-! ### Where courses come from -/

variable {t : Text} {k spaces : Courses} {c : Course}

theorem mem_of_literalCourses {s : Text} (h : some c ∈ literalCourses s t k) : some c ∈ k := by
  induction t generalizing k with
  | nil =>
    rw [literalCourses, List.mem_singleton] at h
    split at h
    · exact Courses.mem_of_here h.symm
    · cases h
  | cons d t ih =>
    rw [literalCourses, List.mem_cons] at h
    rcases h with hfirst | hrest
    · split at hfirst
      · exact List.mem_of_mem_drop (Courses.mem_of_here hfirst.symm)
      · cases hfirst
    · exact List.mem_of_mem_tail (ih hrest)

theorem mem_of_wildCourses {w : Wildcard} (h : some c ∈ wildCourses w t k) : some c ∈ k := by
  induction t generalizing k with
  | nil =>
    rw [wildCourses, List.mem_singleton] at h
    cases h
  | cons d t ih =>
    have hlater : some c ∈ wildCourses w t k.tail → some c ∈ k :=
      fun hlater => List.mem_of_mem_tail (ih hlater)
    rw [wildCourses, List.mem_cons] at h
    rcases h with hfirst | hrest
    · split at hfirst
      · rcases Option.or_eq_some_iff.mp hfirst.symm with hhere | ⟨-, hhere⟩
        · exact List.mem_of_mem_tail (Courses.mem_of_here hhere)
        · exact hlater (Courses.mem_of_here hhere)
      · cases hfirst
    · exact hlater hrest

theorem mem_of_spaceCourses (h : some c ∈ spaceCourses t k) : some c ∈ k := by
  induction t generalizing k with
  | nil =>
    rw [spaceCourses, List.mem_singleton] at h
    exact Courses.mem_of_here h.symm
  | cons d t ih =>
    have hlater : some c ∈ spaceCourses t k.tail → some c ∈ k :=
      fun hlater => List.mem_of_mem_tail (ih hlater)
    rw [spaceCourses, List.mem_cons] at h
    rcases h with hfirst | hrest
    · rcases Option.or_eq_some_iff.mp hfirst.symm with hspace | ⟨-, hhere⟩
      · split at hspace
        · exact hlater (Courses.mem_of_here hspace)
        · cases hspace
      · exact Courses.mem_of_here hhere
    · exact hlater hrest

theorem mem_of_gapCourses {previous : Option Char} (h : some c ∈ gapCourses previous t k spaces) :
    some c ∈ k ∨ some c ∈ spaces := by
  induction t generalizing previous k spaces with
  | nil =>
    rw [gapCourses, List.mem_singleton] at h
    split at h
    · exact .inl (Courses.mem_of_here h.symm)
    · cases h
  | cons d t ih =>
    rw [gapCourses, List.mem_cons] at h
    rcases h with hfirst | hrest
    · rcases Option.or_eq_some_iff.mp hfirst.symm with hspace | ⟨-, hboundary⟩
      · split at hspace
        · exact .inr (List.mem_of_mem_tail (Courses.mem_of_here hspace))
        · cases hspace
      · split at hboundary
        · exact .inl (Courses.mem_of_here hboundary)
        · cases hboundary
    · exact (ih hrest).imp List.mem_of_mem_tail List.mem_of_mem_tail

theorem mem_places {place : Text} (h : place ∈ places t) : place <:+ t := by
  induction t with
  | nil =>
    obtain rfl := List.mem_singleton.mp h
    exact List.suffix_rfl
  | cons d t ih =>
    rcases List.mem_cons.mp h with rfl | hrest
    · exact List.suffix_rfl
    · exact (ih hrest).trans (List.suffix_cons d t)

theorem exists_of_mem_zipWith {α β γ : Type} {f : α → β → γ} {l : List α} {m : List β} {v : γ}
    (h : v ∈ List.zipWith f l m) : ∃ a ∈ l, ∃ b ∈ m, v = f a b := by
  rw [← List.map_uncurry_zip_eq_zipWith] at h
  obtain ⟨⟨a, b⟩, hzip, rfl⟩ := List.mem_map.mp h
  obtain ⟨ha, hb⟩ := List.of_mem_zip hzip
  exact ⟨a, ha, b, hb, rfl⟩

/-! ### What courses remember -/

theorem within_map (h : k.Within t) {f : Course → Course}
    (hf : ∀ c, c.Within t → (f c).Within t) : Courses.Within t (k.map (Option.map f)) := by
  intro c hc
  obtain ⟨course?, hmem, heq⟩ := List.mem_map.mp hc
  obtain ⟨course, rfl, rfl⟩ := Option.map_eq_some_iff.mp heq
  exact hf course (h course hmem)

theorem within_atPlaces (h : k.Within t) {f : Text → Course → Course}
    (hf : ∀ place c, place <:+ t → c.Within t → (f place c).Within t) :
    Courses.Within t (atPlaces f t k) := by
  intro c hc
  obtain ⟨place, hplace, course?, hmem, heq⟩ := exists_of_mem_zipWith hc
  obtain ⟨course, rfl, rfl⟩ := Option.map_eq_some_iff.mp heq.symm
  exact hf place course (mem_places hplace) (h course hmem)

theorem within_or {l m : Courses} (hl : l.Within t) (hm : m.Within t) :
    Courses.Within t (List.zipWith Option.or l m) := by
  intro c hc
  obtain ⟨first, hfirst, second, hsecond, heq⟩ := exists_of_mem_zipWith hc
  rcases Option.or_eq_some_iff.mp heq.symm with rfl | ⟨-, rfl⟩
  · exact hl c hfirst
  · exact hm c hsecond

/-- Whatever a course remembers begins in the message, if that holds of how it goes on. -/
theorem within_courses (e : Expression) (h : k.Within t) : Courses.Within t (e.courses t k) := by
  induction e generalizing k with
  | literal s => exact fun c hc => h c (mem_of_literalCourses hc)
  | wild w => exact fun c hc => h c (mem_of_wildCourses hc)
  | gap =>
    intro c hc
    rcases mem_of_gapCourses hc with hk | hspaces
    · exact h c hk
    · exact h c (mem_of_spaceCourses hspaces)
  | seq a b iha ihb => exact iha (ihb h)
  | either a b iha ihb =>
    have hskip (n : Nat) (c : Course) (hc : c.Within t) : (c.skip n).Within t := c.within_skip hc n
    have ha := iha (within_map h (hskip b.captures))
    have hb := within_map (ihb h) (hskip a.captures)
    exact within_or ha hb
  | group remember a ih =>
    cases remember with
    | false => exact ih h
    | true =>
      have hclosed : Courses.Within t (atPlaces Course.close t k) :=
        within_atPlaces h fun _ _ _ hc => hc
      exact within_atPlaces (ih hclosed) fun place c hplace hc => Course.within_remember hplace hc

theorem within_finish (message t : Text) : Courses.Within message (finish t) := by
  induction t with
  | nil =>
    intro c hc
    cases List.mem_singleton.mp hc
    exact fun _ hs => nomatch hs
  | cons d t ih =>
    intro c hc
    rcases List.mem_cons.mp hc with hnone | hrest
    · cases hnone
    · exact ih c hrest

theorem isInfix_of_match? {e : Expression} {message star : Text} {stars : List Text}
    (h : e.match? message = some stars) (hstar : star ∈ stars) : star <:+: message := by
  obtain ⟨c, hc, rfl⟩ := Option.map_eq_some_iff.mp h
  obtain ⟨s, hs, rfl⟩ := List.mem_map.mp hstar
  have hwithin := e.within_courses (within_finish message message) c (Courses.mem_of_here hc)
  exact Span.isInfix_text (hwithin s hs)

end Expression

theorem Matcher.infix_of_captures {m : Matcher} {message star : Text} {stars : List Text}
    (h : m.captures message = some stars) (hstar : star ∈ stars) : star <:+: message := by
  cases m with
  | exactly t =>
    rw [captures] at h
    split at h
    · cases h
      cases hstar
    · cases h
  | line =>
    rw [captures] at h
    split at h
    · cases h
    · cases h
      obtain rfl := List.mem_singleton.mp hstar
      exact List.infix_rfl
  | expression e => exact Expression.isInfix_of_match? h hstar

namespace Selection

variable {b : Bot} {p : Playbook} {user topic message : Text} {m : Match} {n : Nat}

theorem infix_of_tryPattern {s : Surroundings} {strict : Bool} {pattern star : Text}
    {stars : List Text} (h : tryPattern s strict pattern message = .ok (some stars))
    (hstar : star ∈ stars) : star <:+: message := by
  rw [tryPattern] at h
  split at h
  · exact Matcher.infix_of_captures (Except.ok.inj h) hstar
  · cases h

theorem fits_of_matchTrigger (h : matchTrigger b p user topic message = .ok (some m, n)) :
    tryPattern (surroundings b p user) b.settings.strict m.rule.pattern message =
      .ok (some m.stars) := by
  rcases firstTrigger_ok h with ⟨hnone, -⟩ | ⟨-, pattern, -, found, -, hsome, hanswers, -⟩
  · cases hnone
  · cases hsome
    rw [hanswers.pattern_eq]
    exact hanswers.fits

theorem fits_of_matchPrevious (h : matchPrevious b p user topic message = .ok (some m, n)) :
    tryPattern (surroundings b p user) b.settings.strict m.rule.pattern message =
      .ok (some m.stars) := by
  rw [matchPrevious] at h
  split at h
  · cases h
  · exact (firstLookback_some h).2.1

/-- What a topic that is not there answers to is nothing. -/
theorem has_of_matchTrigger (h : matchTrigger b p user topic message = .ok (some m, n)) :
    p.topics.has topic = true := by
  rcases firstTrigger_ok h with ⟨hnone, -⟩ | ⟨-, pattern, -, found, -, hsome, hanswers, -⟩
  · cases hnone
  · obtain ⟨position, howner, -⟩ := hanswers.owner
    rw [Topics.owner?] at howner
    cases hfind : p.topics.find? topic with
    | none =>
      rw [hfind] at howner
      cases howner
    | some t => rw [Table.has, hfind, Option.isSome_some]

theorem has_of_matchPrevious (h : matchPrevious b p user topic message = .ok (some m, n)) :
    p.topics.has topic = true := by
  cases hfind : p.topics.find? topic with
  | none =>
    have htree : p.topics.tree p.depth topic = [] := by
      rw [Topics.tree, Topics.treeFrom, hfind]
    rw [matchPrevious, htree] at h
    cases h
  | some t => rw [Table.has, hfind, Option.isSome_some]

end Selection

end Dialogue
