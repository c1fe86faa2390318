import Dialogue.Proofs.Clauses
import Dialogue.Proofs.Decomposition
import Dialogue.Proofs.Meaning

/-! Optional parts of a pattern are optional words. Between words there is always an edge or a blank for
the gaps around a phrase to take, at both ends of a message too, and inside of a word there is neither. -/
namespace Dialogue

open Text Substitution Expression

namespace Clause

/-- How clauses in a row can be spoken: each optional part is left out, or is one of its phrases. -/
inductive Spoken : List Clause → List Text → Prop where
  | nil : Spoken [] []
  | word {w : Text} {cs : List Clause} {ws : List Text} : Spoken cs ws → Spoken (.word w :: cs) (w :: ws)
  | without {phrases : List (List Text)} {cs : List Clause} {ws : List Text} :
      Spoken cs ws → Spoken (.optional phrases :: cs) ws
  | within {phrases : List (List Text)} {phrase : List Text} {cs : List Clause} {ws : List Text} :
      phrase ∈ phrases → Spoken cs ws → Spoken (.optional phrases :: cs) (phrase ++ ws)

/-! ### Words that are left -/

section Words

variable {c : Char} {w : Text} {ws phrase : List Text} {p : Option Char} {rest : Text}

theorem isSpace_of_isWordChar (h : isWordChar c = true) : isSpace c = false := by
  by_cases hc : c = '_'
  · rw [hc]
    decide
  · exact (plain_of_isWordChar h hc).2.1

theorem eq_of_append {v u t : Text} (hw : ∀ c ∈ w, isWordChar c = true) (hv : ∀ c ∈ v, isWordChar c = true)
    (hu : BeginsApart u) (ht : BeginsApart t) (h : w ++ u = v ++ t) : w = v ∧ u = t := by
  -- If one of the words is longer, the other is followed by the rest of it.
  rcases List.append_eq_append_iff.mp h with ⟨x, rfl, rfl⟩ | ⟨x, rfl, rfl⟩
  · cases x with
    | nil => exact ⟨(List.append_nil w).symm, rfl⟩
    | cons c x =>
      rw [List.cons_append, beginsApart_cons, hv c (by simp)] at hu
      cases hu
  · cases x with
    | nil => exact ⟨List.append_nil v, rfl⟩
    | cons c x =>
      rw [List.cons_append, beginsApart_cons, hw c (by simp)] at ht
      cases ht

theorem sentence_append (hne : phrase ≠ []) (ws : List Text) :
    sentence (phrase ++ ws) = sentence phrase ++ behind ws := by
  obtain ⟨w, phrase, rfl⟩ := List.exists_cons_of_ne_nil hne
  rw [List.cons_append, sentence_cons, sentence_cons, behind, List.flatMap_append, List.append_assoc]
  rfl

theorem sentence_cons_char (hws : ∀ w ∈ ws, Solid w) (hne : ws ≠ []) :
    ∃ c t, sentence ws = c :: t ∧ isWordChar c = true := by
  obtain ⟨w, ws, rfl⟩ := List.exists_cons_of_ne_nil hne
  obtain ⟨c, v, rfl, hc⟩ := (hws w List.mem_cons_self).exists_cons
  exact ⟨c, v ++ behind ws, sentence_cons _ _, hc⟩

/-- Of a sentence a phrase can be taken only word by word, if what is left does not begin inside of a
word. -/
theorem eq_of_sentence_append (hws : ∀ w ∈ ws, Solid w) (hphrase : ∀ w ∈ phrase, Solid w)
    (hne : phrase ≠ []) (hrest : BeginsApart rest) (h : sentence ws = sentence phrase ++ rest) :
    ∃ later, ws = phrase ++ later ∧ rest = behind later := by
  induction phrase generalizing ws with
  | nil => exact absurd rfl hne
  | cons w phrase ih =>
    obtain ⟨hw, hothers⟩ := List.forall_mem_cons.mp hphrase
    obtain ⟨c, v, hcons, -⟩ := hw.exists_cons
    cases ws with
    | nil =>
      rw [sentence_cons, hcons] at h
      cases h
    | cons x ws =>
      obtain ⟨hx, hws⟩ := List.forall_mem_cons.mp hws
      have happart : BeginsApart (behind phrase ++ rest) :=
        beginsApart_append.mpr ⟨beginsApart_behind phrase, fun _ => hrest⟩
      rw [sentence_cons, sentence_cons, List.append_assoc] at h
      obtain ⟨rfl, hbehind⟩ := eq_of_append hx.word hw.word (beginsApart_behind ws) happart h
      cases phrase with
      | nil => exact ⟨ws, rfl, hbehind.symm⟩
      | cons next phrase =>
        cases ws with
        | nil =>
          rw [behind_eq] at hbehind
          cases hbehind
        | cons y ws =>
          rw [behind_eq, behind_eq, List.cons_append] at hbehind
          obtain ⟨later, hlater, hrest⟩ := ih hws hothers (List.cons_ne_nil _ _) (List.cons.inj hbehind).2
          exact ⟨later, by rw [hlater]; rfl, hrest⟩

end Words

/-! ### Edges of words -/

/-- The words that are left at a place, which lies right behind a word or before the next one. -/
inductive Stands : Point → List Text → Prop where
  | behind {p : Option Char} {ws : List Text} : p.any isWordChar = true → Stands ⟨p, behind ws⟩ ws
  | before {p : Option Char} {ws : List Text} :
      p.any isWordChar = false → ws ≠ [] → Stands ⟨p, sentence ws⟩ ws

section Gaps

variable {x y z : Point} {ws phrase : List Text} {p : Option Char} {c : Char} {t rest : Text}

/-- Before a character of a word there is nothing for a gap but the edge of the word. -/
theorem leads_gap_cons (hc : isWordChar c = true) :
    gap.Leads ⟨p, c :: t⟩ y ↔ p.any isWordChar = false ∧ y = ⟨p, c :: t⟩ := by
  have hspaces : ¬ ∃ v, v ≠ [] ∧ (∀ d ∈ v, isSpace d = true) ∧ c :: t = v ++ y.left ∧
      y = .behind v p y.left := by
    rintro ⟨_ | ⟨d, v⟩, hne, hv, ht, -⟩
    · exact hne rfl
    · obtain ⟨rfl, -⟩ := List.cons.inj ht
      have hspace := hv c List.mem_cons_self
      rw [isSpace_of_isWordChar hc] at hspace
      cases hspace
  rw [Leads, or_iff_left hspaces, isBoundary, List.head?_cons, Option.any_some, hc]
  cases p.any isWordChar <;> simp

theorem leads_gap_behind (hws : ∀ w ∈ ws, Solid w) (hp : p.any isWordChar = true) :
    gap.Leads ⟨p, behind ws⟩ y ↔ y = ⟨p, behind ws⟩ ∨ ws ≠ [] ∧ y = ⟨some ' ', sentence ws⟩ := by
  have hedge : isBoundary p (behind ws).head? = true := by
    have hapart : (behind ws).head?.any isWordChar = false := by
      rw [← Bool.not_eq_true, Option.any_eq_true]
      rintro ⟨c, hc, hword⟩
      rw [beginsApart_behind ws c hc] at hword
      cases hword
    rw [isBoundary, hp, hapart]
    rfl
  rw [Leads, hedge]
  refine or_congr (by simp) ?_
  constructor
  · rintro ⟨_ | ⟨d, v⟩, hne, hv, ht, hy⟩
    · exact absurd rfl hne
    · cases ws with
      | nil => cases ht
      | cons w ws =>
        -- After the blank the next word begins.
        rw [behind_eq, List.cons_append, List.cons.injEq] at ht
        obtain ⟨rfl, ht⟩ := ht
        obtain ⟨c, u, hsentence, hc⟩ := sentence_cons_char hws (List.cons_ne_nil _ _)
        cases v with
        | nil =>
          refine ⟨List.cons_ne_nil _ _, ?_⟩
          rw [hy, ht]
          rfl
        | cons e v =>
          rw [hsentence, List.cons_append, List.cons.injEq] at ht
          have hspace := hv c (by rw [ht.1]; simp)
          rw [isSpace_of_isWordChar hc] at hspace
          cases hspace
  · rintro ⟨hne, rfl⟩
    obtain ⟨w, ws, rfl⟩ := List.exists_cons_of_ne_nil hne
    exact ⟨[' '], List.cons_ne_nil _ _, List.forall_mem_singleton.mpr rfl, behind_eq w ws, rfl⟩

theorem Stands.gap_self (h : Stands x ws) (hws : ∀ w ∈ ws, Solid w) : gap.Leads x x := by
  cases h with
  | behind hp => exact (leads_gap_behind hws hp).mpr (.inl rfl)
  | before hp hne =>
    obtain ⟨c, t, hsentence, hc⟩ := sentence_cons_char hws hne
    rw [hsentence, leads_gap_cons hc]
    exact ⟨hp, rfl⟩

/-- A gap leads to the next word. -/
theorem Stands.gap_before (h : Stands x ws) (hws : ∀ w ∈ ws, Solid w) (hne : ws ≠ []) :
    ∃ p : Option Char, p.any isWordChar = false ∧ gap.Leads x ⟨p, sentence ws⟩ := by
  cases h with
  | behind hp => exact ⟨some ' ', by decide, (leads_gap_behind hws hp).mpr (.inr ⟨hne, rfl⟩)⟩
  | before hp hne => exact ⟨_, hp, (Stands.before hp hne).gap_self hws⟩

/-- A gap leaves no word out. -/
theorem Stands.of_gap (h : Stands x ws) (hws : ∀ w ∈ ws, Solid w) (hgap : gap.Leads x y) :
    Stands y ws := by
  cases h with
  | behind hp =>
    rcases (leads_gap_behind hws hp).mp hgap with rfl | ⟨hne, rfl⟩
    · exact .behind hp
    · exact .before (by decide) hne
  | before hp hne =>
    obtain ⟨c, t, hsentence, hc⟩ := sentence_cons_char hws hne
    rw [hsentence, leads_gap_cons hc] at hgap
    rw [hgap.2, ← hsentence]
    exact .before hp hne

theorem beginsApart_of_gap (hp : p.any isWordChar = true) (h : gap.Leads ⟨p, rest⟩ y) :
    BeginsApart rest := by
  cases rest with
  | nil => exact beginsApart_nil
  | cons c t =>
    rw [beginsApart_cons, ← Bool.not_eq_true]
    intro hc
    rw [leads_gap_cons hc, hp] at h
    cases h.1

theorem any_getLast?_sentence (hphrase : ∀ w ∈ phrase, Solid w) (hne : phrase ≠ []) (p : Option Char) :
    ((sentence phrase).getLast?.or p).any isWordChar = true := by
  obtain ⟨earlier, w, rfl⟩ := (List.eq_nil_or_concat' phrase).resolve_left hne
  have hw := hphrase w (by simp)
  obtain ⟨v, c, rfl⟩ := (List.eq_nil_or_concat' w).resolve_left hw.ne
  rw [sentence, intercalate_concat, ← List.append_assoc, List.getLast?_concat]
  exact hw.word c (by simp)

/-- From an edge of a word a phrase reads whole words, if it ends at one too. -/
theorem Stands.of_phrase (h : Stands x ws) (hws : ∀ w ∈ ws, Solid w) (hphrase : ∀ w ∈ phrase, Solid w)
    (hne : phrase ≠ []) (hx : x.left = sentence phrase ++ rest) (hrest : BeginsApart rest) :
    ∃ later, ws = phrase ++ later ∧ rest = Substitution.behind later := by
  cases h with
  | behind hp =>
    obtain ⟨c, t, hsentence, hc⟩ := sentence_cons_char hphrase hne
    have hapart : BeginsApart (sentence phrase ++ rest) := by
      rw [← hx]
      exact beginsApart_behind ws
    rw [hsentence, List.cons_append, beginsApart_cons, hc] at hapart
    cases hapart
  | before => exact eq_of_sentence_append hws hphrase hne hrest hx

end Gaps

/-! ### Runs -/

/-- A match of the pieces goes on from a place to the end of the message. -/
def Goes (ps : List Pattern.Piece) (x : Point) : Prop := Next.Goes (runPieces ps done) x

section Running

variable {ps : List Pattern.Piece} {x y : Point} {ws : List Text} {cs : List Clause} {p : Option Char}
  {phrases : List (List Text)} {c : Char} {t : Text}

theorem goes_nil : Goes [] x ↔ x.left = [] := by
  rw [Goes, Next.Goes, runPieces, done]
  split <;> simp [*]

theorem goes_part {e : Expression} : Goes (.part e :: ps) x ↔ ∃ y, e.Leads x y ∧ Goes ps y :=
  goes_run e x

theorem runPieces_chars (t : Text) (ps : List Pattern.Piece) (next : Next) :
    runPieces (t.map .char ++ ps) next = runLiteral t (runPieces ps next) := by
  induction t with
  | nil => rfl
  | cons c t ih => rw [List.map_cons, List.cons_append, runPieces, ih, runLiteral_cons c t]

theorem goes_chars (t : Text) : Goes (t.map .char ++ ps) x ↔
    ∃ rest, x.left = t ++ rest ∧ Goes ps (.behind t x.before rest) := by
  rw [Goes, runPieces_chars]
  exact isSome_runLiteral

/-- An optional part leads over a gap, or over one of its phrases with a gap on both sides. -/
theorem leads_optionalOf : (Pattern.optionalOf (phrases.map phraseExpression)).Leads x y ↔
    gap.Leads x y ∨ ∃ phrase ∈ phrases, ∃ z, gap.Leads x z ∧
      ∃ u, (phraseExpression phrase).Leads z u ∧ gap.Leads u y := by
  show (eitherOf (courses phrases)).Leads x y ↔ _
  induction phrases with
  | nil => exact (or_iff_left fun ⟨_, h, _⟩ => nomatch h).symm
  | cons phrase phrases ih =>
    rw [eitherOf_courses, List.exists_mem_cons_iff]
    exact (or_congr Iff.rfl ih).trans or_left_comm

/-- Inside of a word no clause begins. -/
theorem not_goes_inside (hp : p.any isWordChar = true) (hc : isWordChar c = true) :
    ¬ Goes (piecesAfter true cs) ⟨p, c :: t⟩ := by
  cases cs with
  | nil => exact fun h => nomatch goes_nil.mp h
  | cons clause cs =>
    cases clause with
    | word w =>
      intro h
      obtain ⟨rest, ht, -⟩ := (goes_chars [' ']).mp h
      obtain ⟨rfl, -⟩ := List.cons.inj ht
      cases hc
    | optional phrases =>
      intro h
      have hnone : ∀ z, ¬ gap.Leads ⟨p, c :: t⟩ z := fun z hz => by
        rw [leads_gap_cons hc, hp] at hz
        cases hz.1
      obtain ⟨y, hy, -⟩ := goes_part.mp h
      rcases leads_optionalOf.mp hy with hgap | ⟨phrase, -, z, hgap, -⟩
      · exact hnone y hgap
      · exact hnone z hgap

theorem Stands.of_blank (h : Stands x ws) (hws : ∀ w ∈ ws, Solid w) {rest : Text}
    (hleft : x.left = ' ' :: rest) : Stands ⟨some ' ', rest⟩ ws := by
  cases h with
  | behind hp =>
    cases ws with
    | nil => cases hleft
    | cons w ws =>
      have hrest : Substitution.behind (w :: ws) = ' ' :: rest := hleft
      rw [behind_eq, List.cons.injEq] at hrest
      rw [← hrest.2]
      exact .before (by decide) (List.cons_ne_nil _ _)
  | before hp hne =>
    obtain ⟨c, t, hsentence, hc⟩ := sentence_cons_char hws hne
    have hblank : sentence ws = ' ' :: rest := hleft
    rw [hsentence, List.cons.injEq] at hblank
    rw [hblank.1] at hc
    cases hc

/-- A word goes on behind itself only. -/
theorem of_goes_word {w : Text} (hw : Solid w) (hws : ∀ w ∈ ws, Solid w) (hx : Stands x ws)
    (hgoes : Goes (w.map .char ++ piecesAfter true cs) x) :
    ∃ y later, ws = w :: later ∧ Stands y later ∧ Goes (piecesAfter true cs) y := by
  obtain ⟨rest, hleft, hgoes⟩ := (goes_chars w).mp hgoes
  have hwords : ∀ v ∈ [w], Solid v := List.forall_mem_singleton.mpr hw
  have hsentence : sentence [w] = w := List.intercalate_singleton
  have hend : (w.getLast?.or x.before).any isWordChar = true := by
    have hany := any_getLast?_sentence hwords (List.cons_ne_nil _ _) x.before
    rwa [hsentence] at hany
  have hrest : BeginsApart rest := by
    cases rest with
    | nil => exact beginsApart_nil
    | cons c t =>
      rw [beginsApart_cons, ← Bool.not_eq_true]
      exact fun hc => not_goes_inside hend hc hgoes
  rw [← hsentence] at hleft
  obtain ⟨later, rfl, rfl⟩ := hx.of_phrase hws hwords (List.cons_ne_nil _ _) hleft hrest
  exact ⟨_, later, rfl, .behind hend, hgoes⟩

/-- Where a match goes on from an edge of a word, the clauses are spoken as the words that are left. -/
theorem spoken_of_goes (h : ∀ c ∈ cs, c.IsPlain) (hws : ∀ w ∈ ws, Solid w) (hx : Stands x ws)
    {afterWord : Bool} (hgoes : Goes (piecesAfter afterWord cs) x) : Spoken cs ws := by
  induction cs generalizing x ws afterWord with
  | nil =>
    have hleft : x.left = [] := goes_nil.mp hgoes
    cases hx with
    | behind hp =>
      cases ws with
      | nil => exact .nil
      | cons w ws => cases hleft
    | before hp hne =>
      obtain ⟨c, t, hsentence, -⟩ := sentence_cons_char hws hne
      rw [show sentence ws = [] from hleft] at hsentence
      cases hsentence
  | cons clause cs ih =>
    obtain ⟨hclause, hcs⟩ := List.forall_mem_cons.mp h
    cases clause with
    | word w =>
      have hword : ∃ y, Stands y ws ∧ Goes (w.map .char ++ piecesAfter true cs) y := by
        cases afterWord with
        | false => exact ⟨x, hx, hgoes⟩
        | true =>
          obtain ⟨rest, hleft, hgoes⟩ := (goes_chars [' ']).mp hgoes
          exact ⟨_, hx.of_blank hws hleft, hgoes⟩
      obtain ⟨y, hy, hgoes⟩ := hword
      obtain ⟨z, later, rfl, hz, hgoes⟩ := of_goes_word hclause.toSolid hws hy hgoes
      exact .word (ih hcs (List.forall_mem_cons.mp hws).2 hz hgoes)
    | optional phrases =>
      have hpart : Goes (.part (Pattern.optionalOf (phrases.map phraseExpression)) ::
          piecesAfter false cs) x := by
        cases afterWord <;> exact hgoes
      obtain ⟨y, hy, hgoes⟩ := goes_part.mp hpart
      rcases leads_optionalOf.mp hy with hgap | ⟨phrase, hmem, z, hz, u, ⟨hleft, hu⟩, hgap⟩
      · exact .without (ih hcs hws (hx.of_gap hws hgap) hgoes)
      · have hphrase := hclause.2 phrase hmem
        have hwords : ∀ w ∈ phrase, Solid w := fun w hw => (hphrase.words w hw).toSolid
        have hend := any_getLast?_sentence hwords hphrase.ne z.before
        rw [hu] at hgap
        obtain ⟨later, rfl, hlater⟩ := (hx.of_gap hws hz).of_phrase hws hwords hphrase.ne hleft
          (beginsApart_of_gap hend hgap)
        have hothers : ∀ w ∈ later, Solid w := fun w hw => hws w (List.mem_append_right _ hw)
        rw [hlater] at hgap
        exact .within hmem (ih hcs hothers ((Stands.behind hend).of_gap hothers hgap) hgoes)

/-- A match goes on from every edge of a word at which the words are left; behind the last clause that is
no word only if there are none left. -/
structure Continues (cs : List Clause) (ws : List Text) : Prop where
  behind : ∀ p : Option Char, p.any isWordChar = true →
    Goes (piecesAfter true cs) ⟨p, Substitution.behind ws⟩
  before : ∀ p : Option Char, p.any isWordChar = false → ws ≠ [] →
    Goes (piecesAfter false cs) ⟨p, sentence ws⟩
  ends : ∀ p : Option Char, p.any isWordChar = true → ws = [] → Goes (piecesAfter false cs) ⟨p, []⟩

theorem Continues.after_gap (h : Continues cs ws) (hws : ∀ w ∈ ws, Solid w) (hx : Stands x ws) :
    ∃ y, gap.Leads x y ∧ Goes (piecesAfter false cs) y := by
  by_cases hne : ws = []
  · cases hx with
    | behind hp =>
      refine ⟨_, (Stands.behind hp).gap_self hws, ?_⟩
      rw [hne]
      exact h.ends _ hp hne
    | before hp hnot => exact absurd hne hnot
  · obtain ⟨p, hp, hgap⟩ := hx.gap_before hws hne
    exact ⟨_, hgap, h.before p hp hne⟩

theorem Continues.optional (h : ∀ x, Stands x ws →
    ∃ y, (Pattern.optionalOf (phrases.map phraseExpression)).Leads x y ∧ Goes (piecesAfter false cs) y) :
    Continues (.optional phrases :: cs) ws where
  behind p hp := goes_part.mpr (h _ (.behind hp))
  before p hp hne := goes_part.mpr (h _ (.before hp hne))
  ends p hp hnil := goes_part.mpr (h ⟨p, []⟩ (by
    have hstands : Stands ⟨p, Substitution.behind ws⟩ ws := .behind hp
    rwa [hnil] at hstands ⊢))

theorem continues_of_spoken (h : ∀ c ∈ cs, c.IsPlain) (hws : ∀ w ∈ ws, Solid w) (hspoken : Spoken cs ws) :
    Continues cs ws := by
  induction hspoken with
  | nil => exact ⟨fun _ _ => goes_nil.mpr rfl, fun _ _ hne => absurd rfl hne, fun _ _ _ => goes_nil.mpr rfl⟩
  | @word w cs ws hspoken ih =>
    obtain ⟨hw, hothers⟩ := List.forall_mem_cons.mp hws
    have hnext := ih (List.forall_mem_cons.mp h).2 hothers
    have hsentence : sentence [w] = w := List.intercalate_singleton
    have hend : ∀ p : Option Char, (w.getLast?.or p).any isWordChar = true := by
      intro p
      have hany := any_getLast?_sentence (List.forall_mem_singleton.mpr hw) (List.cons_ne_nil _ _) p
      rwa [hsentence] at hany
    have hword : ∀ p, Goes (w.map .char ++ piecesAfter true cs) ⟨p, sentence (w :: ws)⟩ := fun p =>
      (goes_chars w).mpr ⟨_, sentence_cons w ws, hnext.behind _ (hend p)⟩
    refine ⟨fun p _ => ?_, fun p _ _ => hword p, fun _ _ hnil => nomatch hnil⟩
    exact (goes_chars [' ']).mpr ⟨_, behind_eq w ws, hword _⟩
  | without hspoken ih =>
    have hnext := ih (List.forall_mem_cons.mp h).2 hws
    refine .optional fun x hx => ?_
    obtain ⟨y, hgap, hgoes⟩ := hnext.after_gap hws hx
    exact ⟨y, leads_optionalOf.mpr (.inl hgap), hgoes⟩
  | @within phrases phrase cs ws hmem hspoken ih =>
    obtain ⟨hclause, hcs⟩ := List.forall_mem_cons.mp h
    have hothers : ∀ w ∈ ws, Solid w := fun w hw => hws w (List.mem_append_right _ hw)
    have hphrase := hclause.2 phrase hmem
    have hend := any_getLast?_sentence (fun w hw => (hphrase.words w hw).toSolid) hphrase.ne
    have hnext := ih hcs hothers
    refine .optional fun x hx => ?_
    obtain ⟨p, hp, hfirst⟩ := hx.gap_before hws fun hnil => hphrase.ne (List.append_eq_nil_iff.mp hnil).1
    obtain ⟨y, hgap, hgoes⟩ := hnext.after_gap hothers (.behind (hend p))
    refine ⟨y, leads_optionalOf.mpr (.inr ⟨phrase, hmem, _, hfirst, _, ⟨?_, rfl⟩, hgap⟩), hgoes⟩
    exact sentence_append hphrase.ne ws

end Running

/-! ### Matchers -/

/-- A matcher takes just those messages of words as which the clauses can be spoken. It remembers
nothing. -/
structure Understands (cs : List Clause) (m : Matcher) : Prop where
  captures_iff : ∀ ws, ws ≠ [] → (∀ w ∈ ws, Solid w) → (m.captures (sentence ws) = some [] ↔ Spoken cs ws)
  nothing : ∀ message stars, m.captures message = some stars → stars = []

/-- The engine takes what the clauses mean. Words alone are not shown to it. -/
def Taken (engine : Engine) (cs : List Clause) : Prop :=
  cs.all isWord = true ∨ engine.refusal? (expressionOf cs) = none

section Matching

variable {cs : List Clause}

theorem captures_piecesAfter (afterWord : Bool) (cs : List Clause) :
    Pattern.capturesOf (piecesAfter afterWord cs) = 0 := by
  have hphrases : ∀ phrases : List (List Text),
      Pattern.capturesOfEach (phrases.map phraseExpression) = 0 := by
    intro phrases
    induction phrases with
    | nil => rfl
    | cons phrase phrases ih =>
      rw [List.map_cons, Pattern.capturesOfEach, ih]
      rfl
  have hpieces : ∀ c : Clause, Pattern.capturesOf c.pieces = 0 := by
    intro c
    cases c with
    | word w => exact Pattern.capturesOf_chars w
    | optional phrases =>
      rw [pieces, Pattern.capturesOf_part, Pattern.captures_optionalOf, hphrases]
      rfl
  induction cs generalizing afterWord with
  | nil => rfl
  | cons c cs ih =>
    have hseparator : Pattern.capturesOf (separator afterWord c) = 0 := by
      rw [separator]
      split <;> rfl
    rw [piecesAfter, Pattern.capturesOf_append, Pattern.capturesOf_append, hseparator, hpieces, ih]

theorem understands_expression (h : ∀ c ∈ cs, c.IsPlain) :
    Understands cs (.expression (expressionOf cs)) := by
  have hnothing : ∀ message stars,
      (Matcher.expression (expressionOf cs)).captures message = some stars → stars = [] := by
    intro message stars hstars
    have hlength := (reads_of_match? hstars).length
    rw [expressionOf, Pattern.captures_join, captures_piecesAfter] at hlength
    exact List.eq_nil_of_length_eq_zero hlength
  refine ⟨fun ws hne hws => ?_, hnothing⟩
  have hrun : (∃ stars, (expressionOf cs).match? (sentence ws) = some stars) ↔
      Goes (piecesAfter false cs) ⟨none, sentence ws⟩ := by
    rw [expressionOf, match?_eq_run, run_join, ← Option.isSome_iff_exists, Option.isSome_map]
    rfl
  have hstands : Stands ⟨none, sentence ws⟩ ws := .before rfl hne
  constructor
  · exact fun hmatch => spoken_of_goes h hws hstands (hrun.mp ⟨_, hmatch⟩)
  · intro hspoken
    obtain ⟨stars, hstars⟩ := hrun.mpr ((continues_of_spoken h hws hspoken).before none rfl hne)
    obtain rfl := hnothing _ _ hstars
    exact hstars

/-- Words alone are compared as a whole, which is the same. -/
theorem understands_exactly (h : ∀ c ∈ cs, c.IsPlain) (hwords : cs.all isWord = true) :
    Understands cs (.exactly (written cs)) := by
  have hexpression : expressionOf cs = .literal (written cs) := by
    have hend := trimEnd_trim (written cs)
    rw [trim_written h] at hend
    have hliteral := Pattern.expression_verbatim {} (by rwa [isVerbatim_written h]) hend (items_written h)
    rwa [expression_items {} h, collapse_written h hwords] at hliteral
  have hcaptures : (Matcher.exactly (written cs)).captures =
      (Matcher.expression (expressionOf cs)).captures := by
    funext message
    rw [hexpression, Matcher.captures, Matcher.captures, match?_literal]
  obtain ⟨hspoken, hnothing⟩ := understands_expression h
  rw [← hcaptures] at hspoken hnothing
  exact ⟨hspoken, hnothing⟩

/-- Optional parts are optional words, unless the engine does not take them: then the pattern is refused,
or stands for its own text only if the bot is not strict. -/
theorem written_understood (s : Surroundings) (h : ∀ c ∈ cs, c.IsPlain) :
    (Taken s.engine cs →
      ∃ m, (∀ strict, Matcher.ofPattern s strict (written cs) = .ok m) ∧ Understands cs m) ∧
    (¬ Taken s.engine cs → ∃ l, s.engine.refusal? (expressionOf cs) = some l ∧
      Matcher.ofPattern s true (written cs) = .error (.limit l) ∧
        Matcher.ofPattern s false (written cs) = .ok (.exactly (written cs))) :=
  Matcher.taken_or_refused (fun strict => ofPattern_written s strict h) (understands_exactly h)
    fun _ => understands_expression h

/-- Asking, with what can be left out. -/
def request : List Clause :=
  [.optional [["please"], ["could", "you"]], .word "open", .optional [["the"]], .optional [["big"]],
    .word "door"]

theorem request_understood : written request = "[please|could you] open [the] [big] door" ∧
    ∃ m, (∀ strict, Matcher.ofPattern {} strict "[please|could you] open [the] [big] door" = .ok m) ∧
      Understands request m ∧ m.captures "could you open big door" = some [] ∧
        m.captures "open thedoor" = none := by
  have htaken : Taken ({} : Surroundings).engine request := .inr (by decide +kernel)
  obtain ⟨m, hm, hunderstands⟩ := (written_understood {} (by decide +kernel)).1 htaken
  have hcaptures : (Matcher.ofPattern {} true (written request)).map (fun m =>
      (m.captures "could you open big door", m.captures "open thedoor")) = .ok (some [], none) := by
    decide +kernel
  rw [hm, Except.map, Except.ok.injEq, Prod.mk.injEq] at hcaptures
  exact ⟨by decide +kernel, m, hm, hunderstands, hcaptures⟩

/-- Five thousand letters that can all be left out. -/
def letters : List Clause := List.replicate 5000 (.optional [["a"]])

theorem piecesAfter_replicate (phrases : List (List Text)) (n : Nat) :
    piecesAfter false (List.replicate n (.optional phrases)) =
      List.replicate n (.part (Pattern.optionalOf (phrases.map phraseExpression))) := by
  induction n with
  | zero => rfl
  | succ n ih => exact congrArg (.part (Pattern.optionalOf (phrases.map phraseExpression)) :: ·) ih

theorem spoken_replicate (phrases : List (List Text)) (n : Nat) :
    Spoken (List.replicate n (.optional phrases)) [] := by
  induction n with
  | zero => exact .nil
  | succ n ih => exact .without ih

/-- One of so many letters would be left, but so many optional parts are not matched. -/
theorem many_letters_not_understood :
    (∀ c ∈ letters, c.IsPlain) ∧ Spoken letters ["a"] ∧
      (∃ l, Matcher.ofPattern {} true (written letters) = .error (.limit l)) ∧
        (Matcher.ofPattern {} false (written letters)).map (fun m => m.captures (sentence ["a"])) =
          .ok none := by
  have hplain : ∀ c ∈ letters, c.IsPlain := by
    intro c hc
    rw [List.eq_of_mem_replicate hc]
    decide
  have hcons : letters = .optional [["a"]] :: List.replicate 4999 (.optional [["a"]]) :=
    List.replicate_succ
  have hwords : ¬ letters.all isWord = true := by
    rw [hcons, List.all_cons]
    exact Bool.false_ne_true
  have hrefused : ∃ l, Engine.standard.refusal? (expressionOf letters) = some l := by
    rw [expressionOf, letters, piecesAfter_replicate]
    exact Pattern.refused_of_replicate (List.Sublist.refl _) (by decide)
  obtain ⟨l, hrefusal⟩ := hrefused
  have hmatcher : ∀ strict, Matcher.ofPattern {} strict (written letters) =
      if strict then .error (.limit l) else .ok (.exactly (written letters)) := by
    intro strict
    rw [ofPattern_written {} strict hplain, if_neg hwords]
    exact Matcher.ofExpression_of_refused hrefusal
  have hspoken : Spoken letters ["a"] := by
    rw [hcons]
    exact .within List.mem_cons_self (spoken_replicate _ _)
  have hne : written letters ≠ sentence ["a"] := by
    intro heq
    have hhead := congrArg List.head? heq
    rw [hcons, written_cons] at hhead
    cases hhead
  refine ⟨hplain, hspoken, ⟨l, hmatcher true⟩, ?_⟩
  rw [hmatcher false, if_neg Bool.false_ne_true, Except.map, Matcher.captures, if_neg hne]

end Matching

end Clause

end Dialogue
