import Dialogue.Proofs.Chunks
import Dialogue.Proofs.Courses

/-! Patterns of words and wildcards take messages apart. Such a pattern matches a line just if texts can
be put in the places of its wildcards so that the line comes out, and the stars are the texts whose
lengths come first when they are compared from left to right. -/
namespace Dialogue

open Text

/-- What a wildcard can stand for in a line. -/
def Wildcard.Covers : Wildcard → Text → Prop
  | .anything, v => v ≠ []
  | .number, v => v ≠ [] ∧ ∀ c ∈ v, isDigit c = true
  | .letters, v => v ≠ [] ∧ ∀ c ∈ v, isSpace c = false ∧ isDigit c = false

theorem Wildcard.covers_iff {v : Text} (h : '\n' ∉ v) (w : Wildcard) :
    w.Covers v ↔ v ≠ [] ∧ ∀ c ∈ v, w.admits c = true := by
  cases w with
  | anything =>
    have hline : ∀ c ∈ v, Wildcard.anything.admits c = true := by
      intro c hc
      rw [admits, bne_iff_ne]
      rintro rfl
      exact h hc
    exact ⟨fun hne => ⟨hne, hline⟩, fun hv => hv.1⟩
  | number => exact Iff.rfl
  | letters => simp [Covers, admits]

namespace Chunk

def wildsOf : List Chunk → List Wildcard
  | [] => []
  | .word _ :: cs => wildsOf cs
  | .wild w :: cs => w :: wildsOf cs

/-- The texts of chunks, with stars in the places of wildcards as far as there are any. -/
def filled : List Chunk → (stars : List Text) → List Text
  | [], _ => []
  | .word w :: cs, stars => w :: filled cs stars
  | .wild w :: cs, [] => [w.sign] :: filled cs []
  | .wild _ :: cs, star :: stars => star :: filled cs stars

/-- The first length that differs is smaller in the first list. -/
def NoLonger : List Text → List Text → Prop
  | [], _ => True
  | _ :: _, [] => False
  | v :: stars, u :: other => v.length < u.length ∨ v.length = u.length ∧ NoLonger stars other

/-- A message is what comes out when stars are put back into a pattern. -/
structure Decomposes (cs : List Chunk) (message : Text) (stars : List Text) : Prop where
  covers : List.Forall₂ Wildcard.Covers (wildsOf cs) stars
  whole : [' '].intercalate (filled cs stars) = message

/-- The same for marks, of which one after the other is taken off. -/
inductive Fills : List Mark → Text → List Text → Prop where
  | nil : Fills [] [] []
  | char {c : Char} {ms : List Mark} {t : Text} {stars : List Text} :
      Fills ms t stars → Fills (.char c :: ms) (c :: t) stars
  | wild {w : Wildcard} {ms : List Mark} {v t : Text} {stars : List Text} :
      v ≠ [] → (∀ c ∈ v, w.admits c = true) → Fills ms t stars →
      Fills (.wild w :: ms) (v ++ t) (v :: stars)

section Filling

variable {c : Chunk} {cs : List Chunk} {ms : List Mark} {w : Wildcard} {t : Text} {d : Char}
  {stars : List Text}

theorem fills_word {u : Text} : Fills (u.map .char ++ ms) t stars ↔
    ∃ rest, t = u ++ rest ∧ Fills ms rest stars := by
  induction u generalizing t with
  | nil => exact ⟨fun h => ⟨t, rfl, h⟩, fun ⟨rest, hrest, h⟩ => hrest ▸ h⟩
  | cons d u ih =>
    constructor
    · intro h
      cases h with
      | char h =>
        obtain ⟨rest, rfl, hrest⟩ := ih.mp h
        exact ⟨rest, rfl, hrest⟩
    · rintro ⟨rest, rfl, hrest⟩
      exact .char (ih.mpr ⟨rest, rfl, hrest⟩)

/-- A wildcard ends behind a character, or it goes on. -/
theorem fills_wild_cons : Fills (.wild w :: ms) (d :: t) stars ↔ w.admits d = true ∧
    ((∃ later, stars = [d] :: later ∧ Fills ms t later) ∨
      ∃ v later, stars = (d :: v) :: later ∧ Fills (.wild w :: ms) t (v :: later)) := by
  constructor
  · intro h
    generalize hd : d :: t = message at h
    cases h with
    | wild hne hv hrest =>
      obtain ⟨e, v, rfl⟩ := List.exists_cons_of_ne_nil hne
      obtain ⟨rfl, rfl⟩ := List.cons.inj hd
      obtain ⟨he, hv⟩ := List.forall_mem_cons.mp hv
      refine ⟨he, ?_⟩
      cases v with
      | nil => exact .inl ⟨_, rfl, hrest⟩
      | cons f v => exact .inr ⟨_, _, rfl, .wild (List.cons_ne_nil f v) hv hrest⟩
  · rintro ⟨hd, ⟨later, rfl, hlater⟩ | ⟨v, later, rfl, hlater⟩⟩
    · exact .wild (List.cons_ne_nil d []) (List.forall_mem_singleton.mpr hd) hlater
    · cases hlater with
      | wild hne hv hrest =>
        exact .wild (List.cons_ne_nil d v) (List.forall_mem_cons.mpr ⟨hd, hv⟩) hrest

theorem Fills.ne_nil {v : Text} (h : Fills (.wild w :: ms) t (v :: stars)) : v ≠ [] := by
  cases h with
  | wild hne => exact hne

theorem not_fills_wild_nil : ¬ Fills (.wild w :: ms) [] stars := by
  intro h
  generalize ht : ([] : Text) = message at h
  cases h with
  | wild hne => exact hne (List.append_eq_nil_iff.mp ht.symm).1

/-! ### From chunks to marks -/

theorem flatMap_blank {parts : List Text} (h : parts ≠ []) :
    parts.flatMap ([' '] ++ ·) = ' ' :: [' '].intercalate parts := by
  obtain ⟨part, parts, rfl⟩ := List.exists_cons_of_ne_nil h
  rw [intercalate_cons, List.flatMap_cons]
  rfl

theorem decomposes_word {u : Text} : Decomposes (.word u :: cs) t stars ↔
    List.Forall₂ Wildcard.Covers (wildsOf cs) stars ∧
      u ++ (filled cs stars).flatMap ([' '] ++ ·) = t := by
  rw [← intercalate_cons]
  exact ⟨fun h => ⟨h.covers, h.whole⟩, fun h => ⟨h.1, h.2⟩⟩

theorem decomposes_wild : Decomposes (.wild w :: cs) t stars ↔ ∃ star later, stars = star :: later ∧
    w.Covers star ∧ List.Forall₂ Wildcard.Covers (wildsOf cs) later ∧
      star ++ (filled cs later).flatMap ([' '] ++ ·) = t := by
  constructor
  · rintro ⟨hcovers, hwhole⟩
    obtain ⟨star, later, hstar, hlater, rfl⟩ := List.forall₂_cons_left_iff.mp hcovers
    exact ⟨star, later, rfl, hstar, hlater, by rwa [← intercalate_cons]⟩
  · rintro ⟨star, later, rfl, hstar, hlater, hwhole⟩
    rw [← intercalate_cons] at hwhole
    exact ⟨.cons hstar hlater, hwhole⟩

/-- Marks behind blanks are filled as the chunks that they are marks of. -/
def Follows (cs : List Chunk) : Prop := ∀ t stars, '\n' ∉ t → (Fills (behind cs) t stars ↔
  List.Forall₂ Wildcard.Covers (wildsOf cs) stars ∧ (filled cs stars).flatMap ([' '] ++ ·) = t)

theorem fills_front (hfollows : Follows cs) (hline : '\n' ∉ t) :
    Fills (marksOf (c :: cs)) t stars ↔ Decomposes (c :: cs) t stars := by
  rw [marksOf_cons]
  cases c with
  | word u =>
    rw [decomposes_word, marks, fills_word]
    constructor
    · rintro ⟨rest, rfl, hrest⟩
      obtain ⟨hcovers, rfl⟩ := (hfollows _ _ fun hmem => hline (List.mem_append_right _ hmem)).mp hrest
      exact ⟨hcovers, rfl⟩
    · rintro ⟨hcovers, rfl⟩
      exact ⟨_, rfl, (hfollows _ _ fun hmem => hline (List.mem_append_right _ hmem)).mpr ⟨hcovers, rfl⟩⟩
  | wild w =>
    rw [decomposes_wild, marks, List.singleton_append]
    constructor
    · intro h
      cases h with
      | wild hne hv hrest =>
        obtain ⟨hcovers, rfl⟩ := (hfollows _ _ fun hmem => hline (List.mem_append_right _ hmem)).mp hrest
        have hstar := (w.covers_iff fun hmem => hline (List.mem_append_left _ hmem)).mpr ⟨hne, hv⟩
        exact ⟨_, _, rfl, hstar, hcovers, rfl⟩
    · rintro ⟨star, later, rfl, hstar, hcovers, rfl⟩
      obtain ⟨hne, hv⟩ := (w.covers_iff fun hmem => hline (List.mem_append_left _ hmem)).mp hstar
      exact .wild hne hv
        ((hfollows _ _ fun hmem => hline (List.mem_append_right _ hmem)).mpr ⟨hcovers, rfl⟩)

theorem follows (cs : List Chunk) : Follows cs := by
  induction cs with
  | nil =>
    intro t stars _
    constructor
    · intro h
      cases h
      exact ⟨.nil, rfl⟩
    · rintro ⟨hcovers, rfl⟩
      cases hcovers
      exact .nil
  | cons c cs ih =>
    intro t stars hline
    have hfilled : filled (c :: cs) stars ≠ [] := by
      cases c with
      | word u => exact List.cons_ne_nil _ _
      | wild w => cases stars <;> exact List.cons_ne_nil _ _
    rw [behind_cons, flatMap_blank hfilled]
    constructor
    · intro h
      cases h with
      | char h =>
        obtain ⟨hcovers, rfl⟩ := (fills_front ih fun hmem => hline (List.mem_cons_of_mem _ hmem)).mp h
        exact ⟨hcovers, rfl⟩
    · rintro ⟨hcovers, rfl⟩
      exact .char ((fills_front ih fun hmem => hline (List.mem_cons_of_mem _ hmem)).mpr ⟨hcovers, rfl⟩)

theorem fills_marksOf (hne : cs ≠ []) (hline : '\n' ∉ t) :
    Fills (marksOf cs) t stars ↔ Decomposes cs t stars := by
  obtain ⟨c, cs, rfl⟩ := List.exists_cons_of_ne_nil hne
  exact fills_front (follows cs) hline

/-- Without wildcards there is nothing but the pattern itself. -/
theorem decomposes_words (h : cs.all isWord = true) :
    Decomposes cs t stars ↔ stars = [] ∧ written cs = t := by
  have hwilds : wildsOf cs = [] := by
    induction cs with
    | nil => rfl
    | cons c cs ih =>
      rw [List.all_cons, Bool.and_eq_true] at h
      cases c with
      | word u => exact ih h.2
      | wild w => cases h.1
  have hfilled : filled cs [] = cs.map text := by
    induction cs with
    | nil => rfl
    | cons c cs ih =>
      rw [List.all_cons, Bool.and_eq_true] at h
      cases c with
      | word u => exact congrArg (u :: ·) (ih h.2 hwilds)
      | wild w => cases h.1
  constructor
  · rintro ⟨hcovers, hwhole⟩
    rw [hwilds] at hcovers
    cases hcovers
    rw [hfilled] at hwhole
    exact ⟨rfl, hwhole⟩
  · rintro ⟨rfl, hwritten⟩
    refine ⟨?_, ?_⟩
    · rw [hwilds]
      exact .nil
    · rw [hfilled]
      exact hwritten

end Filling

end Chunk

/-! ### Runs -/

namespace Expression

open Pattern

def runPieces : List Piece → Next → Next
  | [], next => next
  | .char c :: ps, next => runLiteral [c] (runPieces ps next)
  | .part e :: ps, next => e.run (runPieces ps next)

theorem runLiteral_cons (c : Char) (t : Text) (next : Next) :
    runLiteral (c :: t) next = runLiteral [c] (runLiteral t next) := by
  funext previous u
  cases u <;> rfl

/-- Pieces that are joined are run one after the other. -/
theorem run_join (ps : List Piece) (next : Next) : (join ps).run next = runPieces ps next := by
  fun_induction join ps with
  | case1 => rfl
  | case2 e => rfl
  | case3 e ps hps ih => rw [run, ih, runPieces]
  | case4 c ps t hjoin ih =>
    rw [hjoin] at ih
    rw [run, runLiteral_cons, runPieces, ← ih, run]
  | case5 c ps t e hjoin ih =>
    rw [hjoin] at ih
    rw [run, run, runLiteral_cons, runPieces, ← ih, run, run]
  | case6 c ps _ _ ih => rw [run, run, ih, runPieces]

end Expression

namespace Chunk

open Expression

/-- A run over marks finds the filling whose lengths come first, or there is none. -/
def Outcome (ms : List Mark) (t : Text) : Option Course → Prop
  | none => ∀ stars, ¬ Fills ms t stars
  | some c => c.stops = [] ∧ Fills ms t (c.spans.map Span.text) ∧
    ∀ stars, Fills ms t stars → NoLonger (c.spans.map Span.text) stars

/-- The same from a place inside of a wildcard, whose end is noted. -/
def Outcome.Inside (w : Wildcard) (ms : List Mark) (t : Text) : Option Course → Prop
  | none => ∀ stars, ¬ Fills (.wild w :: ms) t stars
  | some c => ∃ v rest, t = v ++ rest ∧ c.stops = [rest] ∧
    Fills (.wild w :: ms) t (v :: c.spans.map Span.text) ∧
    ∀ stars, Fills (.wild w :: ms) t stars → NoLonger (v :: c.spans.map Span.text) stars

section Running

variable {ms : List Mark} {w : Wildcard} {next : Next}

theorem inside_runWild (hnext : ∀ previous t, Outcome ms t (next previous t)) (previous : Option Char)
    (t : Text) : Outcome.Inside w ms t
      (runWild w (fun previous t => (next previous t).map (Course.close t)) previous t) := by
  induction t generalizing previous with
  | nil => exact fun stars => not_fills_wild_nil
  | cons d t ih =>
    rw [runWild]
    split
    · rename_i hadmits
      have hhere := hnext (some d) t
      cases hrun : next (some d) t with
      | some c =>
        -- The wildcard ends here, which is as early as it can.
        rw [hrun] at hhere
        obtain ⟨hstops, hfills, hfirst⟩ := hhere
        refine ⟨[d], t, rfl, ?_, fills_wild_cons.mpr ⟨hadmits, .inl ⟨_, rfl, hfills⟩⟩, ?_⟩
        · rw [Course.close, hstops]
        · intro stars hstars
          obtain ⟨-, ⟨later, rfl, hlater⟩ | ⟨v, later, rfl, hlater⟩⟩ := fills_wild_cons.mp hstars
          · exact .inr ⟨rfl, hfirst later hlater⟩
          · have hlength : 0 < v.length := List.length_pos_of_ne_nil hlater.ne_nil
            exact .inl (Nat.succ_lt_succ hlength)
      | none =>
        rw [hrun] at hhere
        have hlater := ih (some d)
        rw [Option.map_none, Option.none_or]
        cases hrest :
          runWild w (fun previous t => (next previous t).map (Course.close t)) (some d) t with
        | none =>
          rw [hrest] at hlater
          intro stars hstars
          obtain ⟨-, ⟨later, -, hends⟩ | ⟨v, later, -, hgoes⟩⟩ := fills_wild_cons.mp hstars
          · exact hhere later hends
          · exact hlater _ hgoes
        | some c =>
          rw [hrest] at hlater
          obtain ⟨v, rest, rfl, hstops, hfills, hfirst⟩ := hlater
          refine ⟨d :: v, rest, rfl, hstops, fills_wild_cons.mpr ⟨hadmits, .inr ⟨v, _, rfl, hfills⟩⟩, ?_⟩
          intro stars hstars
          obtain ⟨-, ⟨later, -, hends⟩ | ⟨u, later, rfl, hgoes⟩⟩ := fills_wild_cons.mp hstars
          · exact absurd hends (hhere later)
          · exact (hfirst _ hgoes).imp Nat.succ_lt_succ (And.imp_left (congrArg Nat.succ))
    · rename_i hadmits
      intro stars hstars
      exact hadmits (fills_wild_cons.mp hstars).1

theorem outcome_wild (hnext : ∀ previous t, Outcome ms t (next previous t)) (previous : Option Char)
    (t : Text) : Outcome (.wild w :: ms) t ((Expression.group true (.wild w)).run next previous t) := by
  have hinside := inside_runWild (w := w) hnext previous t
  have hgroup : (Expression.group true (.wild w)).run next previous t =
      (runWild w (fun previous t => (next previous t).map (Course.close t)) previous t).map
        (Course.remember t) := rfl
  rw [hgroup]
  cases hrun : runWild w (fun previous t => (next previous t).map (Course.close t)) previous t with
  | none =>
    rw [hrun] at hinside
    exact hinside
  | some c =>
    rw [hrun] at hinside
    obtain ⟨v, rest, rfl, hstops, hfills, hfirst⟩ := hinside
    have hremember : c.remember (v ++ rest) =
        { stops := [], spans := { start := v ++ rest, stop := rest } :: c.spans } := by
      rw [Course.remember, hstops]
    rw [Option.map_some, hremember]
    refine ⟨rfl, ?_, ?_⟩
    · rw [List.map_cons, text_span]
      exact hfills
    · rw [List.map_cons, text_span]
      exact hfirst

theorem outcome_char (c : Char) (hnext : ∀ previous t, Outcome ms t (next previous t))
    (previous : Option Char) (t : Text) :
    Outcome (.char c :: ms) t (runLiteral [c] next previous t) := by
  cases t with
  | nil => exact fun stars hstars => nomatch hstars
  | cons d t =>
    rw [runLiteral]
    split
    · rename_i hc
      subst hc
      have hrest := hnext (some c) t
      rw [runLiteral]
      cases hrun : next (some c) t with
      | none =>
        rw [hrun] at hrest
        intro stars hstars
        cases hstars with
        | char hstars => exact hrest stars hstars
      | some course =>
        rw [hrun] at hrest
        obtain ⟨hstops, hfills, hfirst⟩ := hrest
        refine ⟨hstops, .char hfills, ?_⟩
        intro stars hstars
        cases hstars with
        | char hstars => exact hfirst stars hstars
    · rename_i hc
      intro stars hstars
      cases hstars
      exact hc rfl

/-- A run over marks to the end of a message tries the fillings in the order of their lengths. -/
theorem outcome_runPieces (ms : List Mark) (previous : Option Char) (t : Text) :
    Outcome ms t (runPieces (ms.map Mark.piece) done previous t) := by
  induction ms generalizing previous t with
  | nil =>
    rw [List.map_nil, runPieces, done]
    split
    · rename_i hnil
      rw [hnil]
      exact ⟨rfl, .nil, fun stars _ => trivial⟩
    · rename_i hne
      intro stars hstars
      cases hstars
      exact hne rfl
  | cons m ms ih =>
    cases m with
    | char c => exact outcome_char c ih previous t
    | wild w => exact outcome_wild ih previous t

end Running

/-! ### Matchers -/

/-- A matcher takes lines apart as the chunks say, the first wildcard as short as can be, then the
second, and so on. -/
structure Separates (cs : List Chunk) (m : Matcher) : Prop where
  exists_iff : ∀ message, '\n' ∉ message →
    ((∃ stars, m.captures message = some stars) ↔ ∃ stars, Decomposes cs message stars)
  decomposes : ∀ message stars, '\n' ∉ message → m.captures message = some stars →
    Decomposes cs message stars
  first : ∀ message stars, '\n' ∉ message → m.captures message = some stars →
    ∀ other, Decomposes cs message other → NoLonger stars other

/-- The engine takes what the chunks mean. Words alone are not shown to it. -/
def Taken (engine : Engine) (cs : List Chunk) : Prop :=
  cs.all isWord = true ∨ engine.refusal? (expressionOf cs) = none

section Matching

variable {cs : List Chunk}

theorem separates_exactly (h : cs.all isWord = true) : Separates cs (.exactly (written cs)) := by
  have hcaptures : ∀ message stars,
      (Matcher.exactly (written cs)).captures message = some stars ↔ Decomposes cs message stars :=
    fun message stars => Matcher.captures_exactly.trans (decomposes_words h).symm
  refine ⟨fun message _ => exists_congr (hcaptures message),
    fun message stars _ => (hcaptures message stars).mp, ?_⟩
  intro message stars _ hstars other _
  obtain ⟨rfl, -⟩ := Matcher.captures_exactly.mp hstars
  trivial

theorem separates_expression (hne : cs ≠ []) :
    Separates cs (.expression (expressionOf cs)) := by
  have hcaptures : ∀ message,
      (Matcher.expression (expressionOf cs)).captures message =
        (runPieces ((marksOf cs).map Mark.piece) done none message).map fun c =>
          c.spans.map Span.text := by
    intro message
    rw [Matcher.captures, expressionOf, match?_eq_run, run_join]
  have hfound : ∀ message stars, '\n' ∉ message →
      (Matcher.expression (expressionOf cs)).captures message = some stars →
        Decomposes cs message stars ∧ ∀ other, Decomposes cs message other → NoLonger stars other := by
    intro message stars hline hstars
    rw [hcaptures] at hstars
    obtain ⟨c, hcourse, rfl⟩ := Option.map_eq_some_iff.mp hstars
    have hrun := outcome_runPieces (marksOf cs) none message
    rw [hcourse] at hrun
    obtain ⟨-, hfills, hfirst⟩ := hrun
    exact ⟨(fills_marksOf hne hline).mp hfills,
      fun other hother => hfirst other ((fills_marksOf hne hline).mpr hother)⟩
  refine ⟨fun message hline => ⟨?_, ?_⟩, fun message stars hline hstars => (hfound _ _ hline hstars).1,
    fun message stars hline hstars => (hfound _ _ hline hstars).2⟩
  · rintro ⟨stars, hstars⟩
    exact ⟨stars, (hfound _ _ hline hstars).1⟩
  · rintro ⟨stars, hstars⟩
    have hrun := outcome_runPieces (marksOf cs) none message
    rw [hcaptures]
    cases hcourse : runPieces ((marksOf cs).map Mark.piece) done none message with
    | none =>
      rw [hcourse] at hrun
      exact absurd ((fills_marksOf hne hline).mpr hstars) (hrun stars)
    | some c => exact ⟨_, rfl⟩

/-- Words and wildcards in a row, other than the star alone, take lines apart, unless the engine does not
take them: then they are refused, or stand for their own text only if the bot is not strict. -/
theorem written_separates (s : Surroundings) (hplain : ∀ c ∈ cs, c.IsPlain)
    (hstar : cs ≠ [.wild .anything]) :
    (Taken s.engine cs →
      ∃ m, (∀ strict, Matcher.ofPattern s strict (written cs) = .ok m) ∧ Separates cs m) ∧
    (¬ Taken s.engine cs → ∃ l, s.engine.refusal? (expressionOf cs) = some l ∧
      Matcher.ofPattern s true (written cs) = .error (.limit l) ∧
        Matcher.ofPattern s false (written cs) = .ok (.exactly (written cs))) := by
  refine Matcher.taken_or_refused (fun strict => ofPattern_written s strict hplain hstar)
    separates_exactly fun hwords => separates_expression ?_
  rintro rfl
  cases hwords

/-- Opinions with what is held of what, and how often. -/
def opinion : List Chunk :=
  [.word "i", .wild .letters, .wild .anything, .word "and", .wild .number]

/-- The second star goes on behind the first "and" that comes, as what follows that is no number. -/
theorem opinion_separates : written opinion = "i _ * and #" ∧
    ∃ m, (∀ strict, Matcher.ofPattern {} strict "i _ * and #" = .ok m) ∧ Separates opinion m ∧
      m.captures "i like cats and dogs and 2" = some (["like", "cats and dogs", "2"] : List Text) ∧
        m.captures "i like 2 and 3 cats" = none := by
  have htaken : Taken ({} : Surroundings).engine opinion := .inr (by decide +kernel)
  obtain ⟨m, hm, hseparates⟩ := (written_separates {} (by decide) (by decide)).1 htaken
  have hcaptures : (Matcher.ofPattern {} true (written opinion)).map (fun m =>
      (m.captures "i like cats and dogs and 2", m.captures "i like 2 and 3 cats")) =
        .ok (some (["like", "cats and dogs", "2"] : List Text), none) := by
    decide +kernel
  rw [hm, Except.map, Except.ok.injEq, Prod.mk.injEq] at hcaptures
  exact ⟨by decide +kernel, m, hm, hseparates, hcaptures⟩

theorem decomposes_replicate {w : Wildcard} {star : Text} (h : w.Covers star) (n : Nat) :
    Decomposes (List.replicate n (.wild w)) ([' '].intercalate (List.replicate n star))
      (List.replicate n star) := by
  refine ⟨?_, ?_⟩
  · induction n with
    | zero => exact .nil
    | succ n ih => exact .cons h ih
  · congr 1
    induction n with
    | zero => rfl
    | succ n ih => exact congrArg (star :: ·) ih

theorem head?_intercalate_replicate (d : Char) (t : Text) (n : Nat) :
    ([' '].intercalate (List.replicate (n + 1) (d :: t))).head? = some d := by
  rw [List.replicate_succ, intercalate_cons]
  rfl

/-- Of a thousand letters with blanks between them each could be a star, but so many stars are not
matched. -/
theorem many_letters_not_matched :
    Decomposes underscores ([' '].intercalate (List.replicate 1000 ['x'])) (List.replicate 1000 ['x']) ∧
      (∃ l, Matcher.ofPattern {} true (written underscores) = .error (.limit l)) ∧
        (Matcher.ofPattern {} false (written underscores)).map (fun m =>
          m.captures ([' '].intercalate (List.replicate 1000 ['x']))) = .ok none := by
  have hx : Wildcard.letters.Covers ['x'] :=
    ⟨List.cons_ne_nil _ _, List.forall_mem_singleton.mpr ⟨by decide, by decide⟩⟩
  obtain ⟨l, hmatcher⟩ := ofPattern_underscores
  refine ⟨decomposes_replicate hx 1000, ⟨l, hmatcher true⟩, ?_⟩
  have hne : written underscores ≠ [' '].intercalate (List.replicate 1000 ['x']) := by
    intro heq
    have hhead := congrArg List.head? heq
    rw [head?_intercalate_replicate, written, underscores, List.map_replicate, text,
      head?_intercalate_replicate] at hhead
    cases hhead
  rw [hmatcher, if_neg Bool.false_ne_true, Except.map, Matcher.captures, if_neg hne]

end Matching

end Chunk

end Dialogue
