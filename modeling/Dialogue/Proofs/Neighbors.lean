import Dialogue.Proofs.Drafts
import Dialogue.Proofs.Table
import Dialogue.Proofs.Words
import Mathlib.Data.List.Chain

/-! Words side by side. A phrase is found together with what stands between words on both of its sides,
and the search goes on behind that. So a word that was replaced leaves nothing before its neighbor, and
of equal words in a row only every other one is replaced. -/
namespace Dialogue.Substitution

open Text

/-! ### Finding a word -/

structure Solid (w : Text) : Prop where
  ne : w ≠ []
  word : ∀ c ∈ w, isWordChar c = true

/-- A word in small letters. -/
structure IsWord (w : Text) : Prop extends Solid w where
  folded : Folded w

theorem isWord_iff {w : Text} : IsWord w ↔ w ≠ [] ∧ w.all isWordChar = true ∧ Folded w := by
  rw [List.all_eq_true]
  exact ⟨fun h => ⟨h.ne, h.word, h.folded⟩, fun h => ⟨⟨h.1, h.2.1⟩, h.2.2⟩⟩

instance (w : Text) : Decidable (IsWord w) := decidable_of_iff _ isWord_iff.symm

/-- What can stand between words. -/
def IsGap (g : Text) : Prop := ∀ c ∈ g, isWordChar c = false

section Finding

variable {p w g u t : Text}

theorem Solid.exists_cons (h : Solid w) : ∃ c v, w = c :: v ∧ isWordChar c = true := by
  obtain ⟨c, v, rfl⟩ := List.exists_cons_of_ne_nil h.ne
  exact ⟨c, v, rfl, h.word c List.mem_cons_self⟩

theorem IsGap.beginsApart (h : IsGap g) : BeginsApart g := fun c hc => h c (List.mem_of_mem_head? hc)

theorem IsGap.append (hg : IsGap g) (hu : IsGap u) : IsGap (g ++ u) :=
  List.forall_mem_append.mpr ⟨hg, hu⟩

theorem tail?_of_beginsApart (hp : Solid p) (ht : BeginsApart t) : tail? p t = none := by
  obtain ⟨c, v, rfl, hc⟩ := hp.exists_cons
  rw [tail?]
  cases hrest : (c :: v).isPrefixOf? t with
  | none => rfl
  | some rest =>
    rw [← List.isPrefixOf?_eq_some_iff_append_eq.mp hrest, List.cons_append, beginsApart_cons, hc] at ht
    cases ht

theorem tail?_self (p : Text) (hu : BeginsApart u) :
    tail? p (p ++ u) = some (u.takeWhile (!isWordChar ·)) := by
  rw [tail?, List.isPrefixOf?_eq_some_iff_append_eq.mpr rfl]
  cases u with
  | nil => rfl
  | cons c u =>
    rw [beginsApart_cons] at hu
    simp [hu]

theorem tail?_of_ne (hp : Solid p) (hw : Solid w) (hu : BeginsApart u) (hne : w ≠ p) :
    tail? p (w ++ u) = none := by
  rw [tail?]
  cases hrest : p.isPrefixOf? (w ++ u) with
  | none => rfl
  | some rest =>
    -- One of the words is longer than the other, and goes on behind it.
    rcases List.append_eq_append_iff.mp (List.isPrefixOf?_eq_some_iff_append_eq.mp hrest) with
      ⟨v, rfl, rfl⟩ | ⟨v, rfl, rfl⟩
    · cases v with
      | nil => exact absurd (List.append_nil p) hne
      | cons c v => simp [hw.word c (by simp)]
    · cases v with
      | nil => exact absurd (List.append_nil w).symm hne
      | cons c v =>
        have hc : isWordChar c = true := hp.word c (by simp)
        rw [List.cons_append, beginsApart_cons, hc] at hu
        cases hu

theorem afterLead?_solid (p : Text) (hw : Solid w) (u : Text) : afterLead? p (w ++ u) = none := by
  obtain ⟨c, v, rfl, hc⟩ := hw.exists_cons
  rw [List.cons_append, afterLead?, if_pos hc]

theorem afterLead?_gap (hp : Solid p) (hg : IsGap g) : afterLead? p g = none := by
  induction g with
  | nil => rfl
  | cons c g ih =>
    obtain ⟨hc, hg⟩ := List.forall_mem_cons.mp hg
    rw [afterLead?, if_neg (by rw [hc]; exact Bool.false_ne_true), ih hg,
      tail?_of_beginsApart hp (IsGap.beginsApart hg)]
    rfl

theorem afterLead?_append (hp : Solid p) (hw : Solid w) (hg : IsGap g) (hne : g ≠ []) (u : Text) :
    afterLead? p (g ++ (w ++ u)) = (tail? p (w ++ u)).map (g, ·) := by
  induction g with
  | nil => exact absurd rfl hne
  | cons c g ih =>
    obtain ⟨hc, hg⟩ := List.forall_mem_cons.mp hg
    rw [List.cons_append, afterLead?, if_neg (by rw [hc]; exact Bool.false_ne_true)]
    cases g with
    | nil => rw [List.nil_append, afterLead?_solid p hw u]
    | cons d g =>
      have hapart : BeginsApart (d :: g ++ (w ++ u)) := beginsApart_cons.mpr (hg d List.mem_cons_self)
      rw [ih hg (List.cons_ne_nil _ _), tail?_of_beginsApart hp hapart]
      cases tail? p (w ++ u) <;> rfl

/-- A word is the phrase, or none is found up to its end. -/
theorem whole?_append (hp : Solid p) (hw : Solid w) (hg : IsGap g) {atStart : Bool}
    (hstart : g = [] → atStart = true) (u : Text) :
    whole? p atStart (g ++ (w ++ u)) = (tail? p (w ++ u)).map (g, ·) := by
  cases g with
  | nil =>
    rw [whole?, hstart rfl, if_pos rfl, List.nil_append, afterLead?_solid p hw u]
    cases tail? p (w ++ u) <;> rfl
  | cons c g =>
    have hapart : BeginsApart (c :: g ++ (w ++ u)) := beginsApart_cons.mpr (hg c List.mem_cons_self)
    rw [whole?, tail?_of_beginsApart hp hapart, ite_self]
    exact afterLead?_append hp hw hg (List.cons_ne_nil _ _) u

end Finding

/-! ### The search -/

section Searching

variable {p new w g u : Text} {previous : Option Char}

theorem placeFrom_cons_of_none {c : Char} {t : Text}
    (h : previous.all isWordChar = true → whole? p previous.isNone (c :: t) = none) :
    placeFrom p new previous 0 (c :: t) = c :: placeFrom p new (some c) 0 t := by
  rw [placeFrom]
  split
  · rename_i lead tail hwhole
    split at hwhole
    · rename_i hword
      rw [h hword] at hwhole
      cases hwhole
    · cases hwhole
  · rfl

theorem placeFrom_skip (p new : Text) (previous : Option Char) (s t : Text) :
    placeFrom p new previous s.length (s ++ t) = placeFrom p new (s.getLast?.or previous) 0 t := by
  induction s generalizing previous with
  | nil => rfl
  | cons c s ih =>
    rw [List.length_cons, List.cons_append, placeFrom, ih, List.getLast?_cons]
    cases s.getLast? <;> rfl

/-- No phrase begins inside a word. -/
theorem placeFrom_word (p new : Text) (d : Char) (hw : ∀ c ∈ w, isWordChar c = true) (u : Text) :
    placeFrom p new (some d) 0 (w ++ u) = w ++ placeFrom p new (some (w.getLast?.getD d)) 0 u := by
  induction w generalizing d with
  | nil => rfl
  | cons c w ih =>
    obtain ⟨hc, hw⟩ := List.forall_mem_cons.mp hw
    have hnone : whole? p false (c :: (w ++ u)) = none := by
      rw [whole?, if_neg Bool.false_ne_true]
      exact afterLead?_solid p (w := [c]) ⟨List.cons_ne_nil _ _, by simpa using hc⟩ (w ++ u)
    rw [List.cons_append, placeFrom_cons_of_none fun _ => hnone, ih c hw, List.getLast?_cons]
    rfl

/-- What is found with a phrase begins right behind a word. -/
theorem placeFrom_gap (p new : Text) {d : Char} (hd : isWordChar d = false) (hg : IsGap g) (u : Text) :
    placeFrom p new (some d) 0 (g ++ u) = g ++ placeFrom p new (some (g.getLast?.getD d)) 0 u := by
  induction g generalizing d with
  | nil => rfl
  | cons c g ih =>
    obtain ⟨hc, hg⟩ := List.forall_mem_cons.mp hg
    rw [List.cons_append, placeFrom_cons_of_none (by simp [hd]), ih hc hg, List.getLast?_cons]
    rfl

theorem placeFrom_of_gap (hp : Solid p) (hg : IsGap g) (hprevious : previous ≠ none) :
    placeFrom p new previous 0 g = g := by
  cases g with
  | nil => cases previous with
    | none => exact absurd rfl hprevious
    | some d => rfl
  | cons c g =>
    obtain ⟨hc, htail⟩ := List.forall_mem_cons.mp hg
    have hnone : whole? p previous.isNone (c :: g) = none := by
      rw [whole?, tail?_of_beginsApart hp (IsGap.beginsApart hg), ite_self]
      exact afterLead?_gap hp hg
    have hrest := placeFrom_gap p new hc htail []
    rw [List.append_nil] at hrest
    rw [placeFrom_cons_of_none fun _ => hnone, hrest, placeFrom]
    simp

/-- The next word is the phrase: it is replaced, and what follows it outside words is passed over. -/
theorem placeFrom_swap (hp : Solid p) (hg : IsGap g) (hu : BeginsApart u)
    (hprevious : previous.all isWordChar = true) (hstart : g = [] → previous = none) :
    ∃ d, placeFrom p new previous 0 (g ++ (p ++ u)) = g ++ (new ++ (u.takeWhile (!isWordChar ·) ++
      placeFrom p new (some d) 0 (u.dropWhile (!isWordChar ·)))) := by
  have hwhole : whole? p previous.isNone (g ++ (p ++ u)) = some (g, u.takeWhile (!isWordChar ·)) := by
    rw [whole?_append hp hp hg (fun hnil => by rw [hstart hnil]; rfl) u, tail?_self p hu]
    rfl
  generalize htake : u.takeWhile (!isWordChar ·) = gap at hwhole ⊢
  generalize hdrop : u.dropWhile (!isWordChar ·) = rest
  obtain ⟨c, t, ht⟩ := List.exists_cons_of_ne_nil (l := g ++ (p ++ gap)) (by simp [hp.ne])
  have hsplit : g ++ (p ++ u) = c :: (t ++ rest) := by
    rw [← List.cons_append, ← ht, ← htake, ← hdrop]
    simp only [List.append_assoc, List.takeWhile_append_dropWhile]
  have hlength : g.length + p.length + gap.length - 1 = t.length := by
    have hlength := congrArg List.length ht
    simp only [List.length_append, List.length_cons] at hlength
    omega
  have hlast : t.getLast?.or (some c) = some (t.getLast?.getD c) := by
    cases t.getLast? <;> rfl
  refine ⟨t.getLast?.getD c, ?_⟩
  rw [hsplit] at hwhole ⊢
  rw [placeFrom, if_pos hprevious, hwhole]
  dsimp only
  rw [hlength, placeFrom_skip, hlast]
  simp only [List.append_assoc]

/-- The next word is another one, and the search goes on behind it. -/
theorem placeFrom_keep (hp : Solid p) (hw : Solid w) (hg : IsGap g) (hu : BeginsApart u) (hne : w ≠ p)
    (hstart : g = [] → previous = none) :
    ∃ d, isWordChar d = true ∧
      placeFrom p new previous 0 (g ++ (w ++ u)) = g ++ (w ++ placeFrom p new (some d) 0 u) := by
  have hwhole : whole? p previous.isNone (g ++ (w ++ u)) = none := by
    rw [whole?_append hp hw hg (fun hnil => by rw [hstart hnil]; rfl) u, tail?_of_ne hp hw hu hne]
    rfl
  have hlast : ∀ d, isWordChar (w.getLast?.getD d) = true := by
    intro d
    rw [List.getLast?_eq_some_getLast hw.ne]
    exact hw.word _ (List.getLast_mem hw.ne)
  cases g with
  | nil =>
    obtain ⟨c, v, rfl, hc⟩ := hw.exists_cons
    refine ⟨v.getLast?.getD c, by simpa [List.getLast?_cons] using hlast c, ?_⟩
    rw [List.nil_append, List.cons_append] at hwhole ⊢
    rw [placeFrom_cons_of_none fun _ => hwhole,
      placeFrom_word p new c (List.forall_mem_cons.mp hw.word).2 u]
    rfl
  | cons c g =>
    obtain ⟨hc, hg⟩ := List.forall_mem_cons.mp hg
    refine ⟨w.getLast?.getD (g.getLast?.getD c), hlast _, ?_⟩
    rw [List.cons_append] at hwhole ⊢
    rw [placeFrom_cons_of_none fun _ => hwhole, placeFrom_gap p new hc hg,
      placeFrom_word p new _ hw.word]
    rfl

end Searching

/-! ### Sentences -/

/-- Words with single blanks between them. -/
def sentence (ws : List Text) : Text := [' '].intercalate ws

def behind (ws : List Text) : Text := ws.flatMap (' ' :: ·)

theorem behind_cons (w : Text) (ws : List Text) : behind (w :: ws) = ' ' :: (w ++ behind ws) := by
  simp [behind]

theorem sentence_cons (w : Text) (ws : List Text) : sentence (w :: ws) = w ++ behind ws :=
  intercalate_cons _ _ _

theorem behind_eq (w : Text) (ws : List Text) : behind (w :: ws) = ' ' :: sentence (w :: ws) := by
  rw [behind_cons, sentence_cons]

theorem beginsApart_behind (ws : List Text) : BeginsApart (behind ws) := by
  cases ws with
  | nil => exact beginsApart_nil
  | cons w ws =>
    rw [behind_cons, beginsApart_cons]
    decide

/-- A word of a sentence while words are replaced in it. -/
inductive Term where
  | kept (w : Text)
  | replaced (index : Nat) (phrase value : Text)
  deriving DecidableEq, Repr

namespace Term

/-- What stands on either side of the word that is written. -/
def edge : Term → Text
  | kept _ => []
  | replaced .. => ['\x00']

def core : Term → Text
  | kept w => w
  | replaced index _ _ => slotWord index

def written (term : Term) : Text := term.edge ++ (term.core ++ term.edge)

def value : Term → Text
  | kept w => w
  | replaced _ _ value => value

def parts : Term → List Part
  | kept w => w.map .kept
  | replaced index phrase value => [.replaced index phrase value]

@[simp] theorem written_replaced (index : Nat) (phrase value : Text) :
    (replaced index phrase value).written = slot index := (slot_eq index).symm

@[simp] theorem written_kept (w : Text) : (kept w).written = w := List.append_nil w

theorem isGap_edge (term : Term) : IsGap term.edge := by
  cases term with
  | kept w => exact List.forall_mem_nil _
  | replaced index phrase value => exact List.forall_mem_singleton.mpr (by decide)

theorem write_parts (term : Term) : write term.parts = term.written := by
  cases term with
  | kept w => rw [parts, write_kept, written_kept]
  | replaced index phrase value => rw [written_replaced]; exact List.append_nil _

theorem final_parts (term : Term) : final term.parts = term.value := by
  cases term with
  | kept w => exact final_kept w
  | replaced index phrase value => exact List.append_nil _

end Term

theorem solid_slotWord (index : Nat) : Solid (slotWord index) :=
  ⟨List.cons_ne_nil _ _, fun _ => isWordChar_of_mem_slotWord⟩

def told (terms : List Term) : Text := sentence (terms.map Term.written)

/-- Only a word that does not stand right behind one that was just replaced is free to be replaced. -/
def swap (phrase : Text) (index : Nat) (value : Text) : (free : Bool) → List Term → List Term
  | _, [] => []
  | free, term :: terms =>
    if free ∧ term = .kept phrase then
      .replaced index phrase value :: swap phrase index value false terms
    else term :: swap phrase index value true terms

section Swapping

variable {p value g : Text} {index : Nat} {terms : List Term} {term : Term} {previous : Option Char}

theorem takeWhile_gap {g w : Text} (hg : IsGap g) (hw : Solid w) (u : Text) :
    (g ++ (w ++ u)).takeWhile (!isWordChar ·) = g ∧
      (g ++ (w ++ u)).dropWhile (!isWordChar ·) = w ++ u := by
  obtain ⟨c, v, rfl, hc⟩ := hw.exists_cons
  exact read_while (by simpa [IsGap] using hg) (by simpa using hc) (v ++ u)

/-- The search is behind a word, with the next words before it. -/
def KeepsBehind (p : Text) (index : Nat) (value : Text) (terms : List Term) : Prop :=
  ∀ d g, isWordChar d = true → IsGap g →
    placeFrom p (slot index) (some d) 0 (g ++ behind (terms.map Term.written)) =
      g ++ behind ((swap p index value true terms).map Term.written)

/-- The search has also passed over what stands before the next word. -/
def KeepsPassed (p : Text) (index : Nat) (value : Text) (terms : List Term) : Prop :=
  ∀ d, (behind (terms.map Term.written)).takeWhile (!isWordChar ·) ++
      placeFrom p (slot index) (some d) 0 ((behind (terms.map Term.written)).dropWhile (!isWordChar ·)) =
    behind ((swap p index value false terms).map Term.written)

theorem placeFrom_next (hp : Solid p) (hletter : 'P' ∉ p) (hterm : Solid term.core)
    (hbehind : KeepsBehind p index value terms) (hpassed : KeepsPassed p index value terms)
    (hg : IsGap g) (hprevious : previous.all isWordChar = true) (hstart : g = [] → previous = none) :
    placeFrom p (slot index) previous 0 (g ++ told (term :: terms)) =
      g ++ told (swap p index value true (term :: terms)) := by
  have hapart := beginsApart_behind (terms.map Term.written)
  rw [told, List.map_cons, sentence_cons, swap]
  split
  · rename_i hterm
    obtain ⟨d, hplace⟩ := @placeFrom_swap p (slot index) _ _ _ hp hg hapart hprevious hstart
    rw [hterm.2, Term.written_kept, hplace, hpassed d, told, List.map_cons, sentence_cons,
      Term.written_replaced]
  · rename_i hother
    have hne : term.core ≠ p := by
      cases term with
      | kept w => exact fun hw => hother ⟨rfl, congrArg Term.kept hw⟩
      | replaced index phrase value =>
        rintro rfl
        exact hletter List.mem_cons_self
    have hgap : IsGap (g ++ term.edge) := hg.append (Term.isGap_edge term)
    have hsides : BeginsApart (term.edge ++ behind (terms.map Term.written)) :=
      beginsApart_append.mpr ⟨(Term.isGap_edge term).beginsApart, fun _ => hapart⟩
    obtain ⟨d, hd, hplace⟩ := @placeFrom_keep p (slot index) _ _ _ _ hp hterm hgap hsides hne
      (fun hnil => hstart (List.append_eq_nil_iff.mp hnil).1)
    rw [hbehind d _ hd (Term.isGap_edge term)] at hplace
    rw [told, List.map_cons, sentence_cons, Term.written]
    simpa only [List.append_assoc] using hplace

theorem keeps (hp : Solid p) (hletter : 'P' ∉ p) (hterms : ∀ term ∈ terms, Solid term.core) :
    KeepsBehind p index value terms ∧ KeepsPassed p index value terms := by
  induction terms with
  | nil =>
    refine ⟨fun d g _ hg => ?_, fun d => rfl⟩
    rw [List.map_nil, swap, List.map_nil, behind, List.flatMap_nil, List.append_nil]
    exact placeFrom_of_gap hp hg (Option.some_ne_none d)
  | cons term terms ih =>
    obtain ⟨hterm, hterms⟩ := List.forall_mem_cons.mp hterms
    obtain ⟨hbehind, hpassed⟩ := ih hterms
    constructor
    · intro d g hd hg
      have hblank : IsGap (g ++ [' ']) := hg.append (List.forall_mem_singleton.mpr (by decide))
      have hnext := @placeFrom_next p value _ index _ _ (some d) hp hletter hterm hbehind hpassed hblank
        hd (by simp)
      have hcons : ∃ next rest, swap p index value true (term :: terms) = next :: rest := by
        rw [swap]
        split <;> exact ⟨_, _, rfl⟩
      obtain ⟨next, rest, hswap⟩ := hcons
      rw [hswap] at hnext ⊢
      rw [List.map_cons, List.map_cons, behind_eq, behind_eq, ← List.map_cons, ← List.map_cons]
      simpa only [List.append_assoc, List.singleton_append, told] using hnext
    · intro d
      have hgap : IsGap (' ' :: term.edge) :=
        List.forall_mem_cons.mpr ⟨by decide, Term.isGap_edge term⟩
      obtain ⟨htake, hdrop⟩ := takeWhile_gap hgap hterm (term.edge ++ behind (terms.map Term.written))
      have hsplit : behind ((term :: terms).map Term.written) =
          ' ' :: term.edge ++ (term.core ++ (term.edge ++ behind (terms.map Term.written))) := by
        rw [List.map_cons, behind_cons, Term.written]
        simp only [List.append_assoc, List.cons_append]
      have hd : isWordChar (term.core.getLast?.getD d) = true := by
        rw [List.getLast?_eq_some_getLast hterm.ne]
        exact hterm.word _ (List.getLast_mem hterm.ne)
      rw [hsplit, htake, hdrop, placeFrom_word p _ d hterm.word, hbehind _ _ hd (Term.isGap_edge term),
        swap, if_neg (by simp), List.map_cons, behind_cons, Term.written]
      simp only [List.append_assoc, List.cons_append]

theorem place_told (hp : Solid p) (hletter : 'P' ∉ p) (hterms : ∀ term ∈ terms, Solid term.core) :
    place p (slot index) (told terms) = told (swap p index value true terms) := by
  cases terms with
  | nil =>
    rw [place, told, List.map_nil, sentence, List.intercalate_nil, placeFrom, if_neg fun h => hp.ne h.2]
    rfl
  | cons term terms =>
    obtain ⟨hterm, hterms⟩ := List.forall_mem_cons.mp hterms
    obtain ⟨hbehind, hpassed⟩ := @keeps p value index terms hp hletter hterms
    exact placeFrom_next (g := []) hp hletter hterm hbehind hpassed (List.forall_mem_nil _) rfl
      fun _ => rfl

end Swapping

/-! ### Every other one -/

/-- Words in turn, where `put` gives what replaces a word. A word that was replaced just before is kept
this time. -/
def exchange {β : Type} (put : Text → Option β) (keep : Text → β) :
    (last : Option Text) → List Text → List β
  | _, [] => []
  | last, w :: ws =>
    match put w with
    | some new =>
      if last = some w then keep w :: exchange put keep none ws
      else new :: exchange put keep (some w) ws
    | none => keep w :: exchange put keep none ws

section Exchanging

variable {β γ : Type} {put : Text → Option β} {keep : Text → β} {last : Option Text} {ws : List Text}

theorem map_exchange (f : β → γ) :
    (exchange put keep last ws).map f =
      exchange (fun w => (put w).map f) (fun w => f (keep w)) last ws := by
  induction ws generalizing last with
  | nil => rfl
  | cons w ws ih =>
    rw [exchange, exchange]
    cases put w with
    | none => exact congrArg (f (keep w) :: ·) ih
    | some new =>
      dsimp only [Option.map_some]
      split
      · exact congrArg (f (keep w) :: ·) ih
      · exact congrArg (f new :: ·) ih

theorem exchange_none (ws : List Text) (last : Option Text) :
    exchange (fun _ => none) keep last ws = ws.map keep := by
  induction ws generalizing last with
  | nil => rfl
  | cons w ws ih => rw [exchange, ih, List.map_cons]

theorem mem_exchange {b : β} (h : b ∈ exchange put keep last ws) :
    (∃ w ∈ ws, b = keep w) ∨ ∃ w, put w = some b := by
  induction ws generalizing last with
  | nil => cases h
  | cons w ws ih =>
    have hrest : ∀ {last}, b ∈ exchange put keep last ws →
        (∃ v ∈ w :: ws, b = keep v) ∨ ∃ v, put v = some b := fun hmem =>
      (ih hmem).imp_left fun ⟨v, hv, hb⟩ => ⟨v, List.mem_cons_of_mem _ hv, hb⟩
    have hkeep : b = keep w → (∃ v ∈ w :: ws, b = keep v) ∨ ∃ v, put v = some b := fun hb =>
      .inl ⟨w, List.mem_cons_self, hb⟩
    rw [exchange] at h
    split at h
    · rename_i new hput
      split at h
      · exact (List.mem_cons.mp h).elim hkeep hrest
      · exact (List.mem_cons.mp h).elim (fun hb => .inr ⟨w, hb ▸ hput⟩) hrest
    · exact (List.mem_cons.mp h).elim hkeep hrest

/-- Each word can be taken on its own exactly if none that is replaced stands right behind itself. -/
theorem exchange_eq_map_iff {put : Text → Option Text} (last : Option Text) :
    exchange put id last ws = ws.map (fun w => (put w).getD w) ↔
      (∀ w ∈ ws.head?, last = some w → (put w).getD w = w) ∧
        ws.IsChain fun v w => v = w → (put w).getD w = w := by
  induction ws generalizing last with
  | nil => simp [exchange]
  | cons w ws ih =>
    rw [exchange, List.map_cons, List.isChain_cons]
    cases hput : put w with
    | none =>
      have hneighbor : ∀ v ∈ ws.head?, w = v → (put v).getD v = v := by
        rintro v - rfl
        rw [hput]
        rfl
      simp only [ih none, List.head?_cons, Option.mem_some_iff, List.cons.injEq]
      simpa [hput] using fun _ => hneighbor
    | some new =>
      dsimp only
      split
      · rename_i hsame
        have hneighbor : w = new → ∀ v ∈ ws.head?, w = v → (put v).getD v = v := by
          rintro rfl v - rfl
          rw [hput]
          rfl
        simp only [ih none, List.cons.injEq, id_eq, Option.getD_some]
        constructor
        · rintro ⟨hw, -, hchain⟩
          refine ⟨?_, hneighbor hw, hchain⟩
          rintro v hv -
          cases hv
          rw [hput]
          exact hw.symm
        · rintro ⟨hhead, -, hchain⟩
          have hw := hhead w rfl hsame
          rw [hput] at hw
          exact ⟨hw.symm, by simp, hchain⟩
      · rename_i hother
        have hhead : ∀ v ∈ (w :: ws).head?, last = some v → (put v).getD v = v := by
          rintro v hv hlast
          cases hv
          exact absurd hlast hother
        simp only [ih (some w), List.cons.injEq, true_and, Option.getD_some, Option.some.injEq]
        exact ⟨fun h => ⟨hhead, h⟩, fun h => h.2⟩

end Exchanging

/-! ### One word after the other -/

/-- What replaces a word, if one of the entries is for it. -/
def located (entries : List (Text × Text)) (w : Text) : Option Term :=
  (entries.zipIdx.find? fun e => e.1.1 == w).map fun e => .replaced e.2 e.1.1 e.1.2

section Locating

variable {done entries entries' : List (Text × Text)} {s : Substitution} {p value w : Text}
  {ws : List Text} {term : Term}

theorem located_snoc (hp : p ∉ done.map Prod.fst) (w : Text) :
    located (done ++ [(p, value)]) w =
      if w = p then some (.replaced done.length p value) else located done w := by
  rw [located, List.zipIdx_append, List.find?_append, Nat.zero_add]
  split
  · rename_i hw
    have hnone : done.zipIdx.find? (fun e => e.1.1 == w) = none := by
      rw [List.find?_eq_none]
      intro e he
      have hmem : e.1.1 ∈ done.map Prod.fst := List.mem_map_of_mem (List.fst_mem_of_mem_zipIdx he)
      rw [hw, beq_iff_eq]
      exact fun heq => hp (heq ▸ hmem)
    rw [hnone]
    simp [hw]
  · rename_i hw
    have hne : (p == w) = false := beq_eq_false_iff_ne.mpr (Ne.symm hw)
    simp [located, hne]

theorem of_located (h : located entries w = some term) :
    ∃ index value, term = .replaced index w value ∧ entries[index]? = some (w, value) := by
  obtain ⟨⟨⟨phrase, value⟩, index⟩, hfind, rfl⟩ := Option.map_eq_some_iff.mp h
  have hphrase := List.find?_some hfind
  have hmem := List.mem_of_find?_eq_some hfind
  rw [beq_iff_eq] at hphrase
  refine ⟨index, value, by rw [← hphrase], ?_⟩
  simpa [← hphrase] using List.mem_zipIdx_iff_getElem?.mp hmem

/-- Replacing one more word goes on with the sentence in which the earlier ones are replaced. -/
theorem swap_exchange {put put' : Text → Option Term} {index : Nat} (hp : put p = none)
    (hput' : ∀ w, put' w = if w = p then some (.replaced index p value) else put w)
    (hput : ∀ w term, put w = some term → term ≠ .kept p) (last : Option Text) :
    swap p index value (decide (last ≠ some p))
        (exchange put .kept (if last = some p then none else last) ws) =
      exchange put' .kept last ws := by
  induction ws generalizing last with
  | nil => rfl
  | cons w ws ih =>
    have hnone := ih none
    have hw := ih (some w)
    simp only [ne_eq, reduceCtorEq, not_false_eq_true, decide_true, ite_self] at hnone
    by_cases hwp : w = p
    · subst hwp
      simp only [ne_eq, not_true_eq_false, decide_false, if_true] at hw
      rw [exchange, exchange, hp, hput', if_pos rfl]
      dsimp only
      by_cases hlast : last = some w
      · simp [swap, hlast, hnone]
      · simp [swap, hlast, hw]
    · have hother : some w ≠ some p := fun h => hwp (Option.some.inj h)
      simp only [ne_eq, hother, not_false_eq_true, decide_true, if_false] at hw
      have hkept : Term.kept w ≠ .kept p := fun h => hwp (Term.kept.inj h)
      rw [exchange, exchange, hput' w, if_neg hwp]
      cases hfound : put w with
      | none =>
        dsimp only
        rw [swap, if_neg fun h => hkept h.2, hnone]
      | some term =>
        have hterm := hput w term hfound
        have hlast : ((if last = some p then none else last) = some w) ↔ last = some w := by
          split
          · rename_i hsame
            rw [hsame]
            exact ⟨fun h => (nomatch h), fun h => absurd h.symm hother⟩
          · exact Iff.rfl
        dsimp only
        simp only [hlast]
        split
        · rw [swap, if_neg fun h => hkept h.2, hnone]
        · rw [swap, if_neg fun h => hterm h.2, hw]

theorem solid_core {put : Text → Option Term} {last : Option Text} (hws : ∀ w ∈ ws, Solid w)
    (hput : ∀ w term, put w = some term → Solid term.core) :
    ∀ term ∈ exchange put .kept last ws, Solid term.core := by
  intro term hterm
  obtain ⟨w, hw, rfl⟩ | ⟨w, hfound⟩ := mem_exchange hterm
  · exact hws w hw
  · exact hput w term hfound

theorem solid_of_located (h : located entries w = some term) : Solid term.core := by
  obtain ⟨index, value, rfl, -⟩ := of_located h
  exact solid_slotWord index

theorem placeAll_told (hws : ∀ w ∈ ws, Solid w) (hentries : ∀ e ∈ entries, Solid e.1 ∧ 'P' ∉ e.1)
    (hnodup : ((done ++ entries).map Prod.fst).Nodup) :
    placeAll done.length entries (told (exchange (located done) .kept none ws)) =
      told (exchange (located (done ++ entries)) .kept none ws) := by
  induction entries generalizing done with
  | nil => rw [placeAll, List.append_nil]
  | cons e entries ih =>
    obtain ⟨p, value⟩ := e
    obtain ⟨⟨hsolid, hletter⟩, hentries⟩ := List.forall_mem_cons.mp hentries
    rw [← List.singleton_append, ← List.append_assoc] at hnodup ⊢
    have hp : p ∉ done.map Prod.fst := by
      have hfirst := (hnodup.sublist ((List.sublist_append_left _ _).map Prod.fst))
      rw [List.map_append, List.nodup_append] at hfirst
      exact fun hmem => hfirst.2.2 p hmem p (by simp) rfl
    have hnone : located done p = none := by
      cases hfound : located done p with
      | none => rfl
      | some term =>
        obtain ⟨index, value, -, hentry⟩ := of_located hfound
        exact absurd (List.mem_map_of_mem (List.mem_of_getElem? hentry)) hp
    have hkept : ∀ w term, located done w = some term → term ≠ .kept p := by
      rintro w term hfound rfl
      obtain ⟨index, value, hterm, -⟩ := of_located hfound
      cases hterm
    have hswap := @swap_exchange p value ws _ _ _ hnone (fun w => located_snoc hp w) hkept none
    have hterms : ∀ term ∈ exchange (located done) .kept none ws, Solid term.core :=
      solid_core hws fun w term => solid_of_located
    have hrest := ih hentries hnodup
    rw [List.length_append, List.length_singleton] at hrest
    rw [List.singleton_append, placeAll, place_told hsolid hletter hterms, ← hrest, ← hswap]
    rfl

end Locating

/-! ### The whole substitution -/

section Applying

variable {table : Table Text} {takes : Text → Bool} {entries entries' : List (Text × Text)}
  {s : Substitution} {ws : List Text}

/-- The parts of a sentence. -/
def spread (terms : List Term) : List Part := [.kept ' '].intercalate (terms.map Term.parts)

theorem write_spread (terms : List Term) : write (spread terms) = told terms := by
  rw [write, spread, flatMap_intercalate, List.map_map, told, sentence]
  congr 1
  exact List.map_congr_left fun term _ => term.write_parts

theorem final_spread (terms : List Term) : final (spread terms) = sentence (terms.map Term.value) := by
  rw [final, spread, flatMap_intercalate, List.map_map, sentence]
  congr 1
  exact List.map_congr_left fun term _ => term.final_parts

theorem fill_told {terms : List Term} (hlength : s.entries.length ≤ Nat.pow 2 64)
    (hentry : ∀ index phrase value, .replaced index phrase value ∈ terms →
      s.entries[index]? = some (phrase, value))
    (hletter : ∀ w, .kept w ∈ terms → 'P' ∉ w) :
    s.fill (told terms) = sentence (terms.map Term.value) := by
  have hmem : ∀ part ∈ spread terms, part = .kept ' ' ∨ ∃ term ∈ terms, part ∈ term.parts := by
    intro part hpart
    rcases mem_of_mem_intercalate hpart with hblank | ⟨parts, hparts, hpart⟩
    · exact .inl (List.mem_singleton.mp hblank)
    · obtain ⟨term, hterm, rfl⟩ := List.mem_map.mp hparts
      exact .inr ⟨term, hterm, hpart⟩
  rw [← write_spread, ← final_spread]
  refine fill_write hlength (fun index phrase value hpart => ?_) fun hpart => ?_
  · obtain hblank | ⟨term, hterm, hpart⟩ := hmem _ hpart
    · cases hblank
    · cases term with
      | kept w => simp [Term.parts] at hpart
      | replaced index' phrase' value' =>
        cases List.mem_singleton.mp hpart
        exact hentry _ _ _ hterm
  · obtain hblank | ⟨term, hterm, hpart⟩ := hmem _ hpart
    · cases hblank
    · cases term with
      | kept w =>
        obtain ⟨c, hc, heq⟩ := List.mem_map.mp hpart
        cases heq
        exact hletter w hterm hc
      | replaced index phrase value => simp [Term.parts] at hpart

theorem located_value (entries : List (Text × Text)) (w : Text) :
    (located entries w).map Term.value = entries.lookup w := by
  have hfrom : ∀ k, (((entries.zipIdx k).find? fun e => e.1.1 == w).map fun e => e.1.2) =
      entries.lookup w := by
    induction entries with
    | nil => exact fun k => rfl
    | cons e entries ih =>
      intro k
      rw [List.zipIdx_cons, List.find?_cons, List.lookup_cons, Bool.beq_comm]
      dsimp only
      cases w == e.1 with
      | true => rfl
      | false => exact ih (k + 1)
  rw [located, Option.map_map]
  exact hfrom 0

theorem lookup_of_perm (h : entries.Perm entries') (hnodup : (entries.map Prod.fst).Nodup) (w : Text) :
    entries.lookup w = entries'.lookup w := by
  induction h with
  | nil => rfl
  | cons e _ ih =>
    rw [List.map_cons, List.nodup_cons] at hnodup
    rw [List.lookup_cons, List.lookup_cons, ih hnodup.2]
  | swap e f entries =>
    rw [List.map_cons, List.map_cons, List.nodup_cons, List.mem_cons, not_or] at hnodup
    have hne : e.1 ≠ f.1 := Ne.symm hnodup.1.1
    rw [List.lookup_cons, List.lookup_cons, List.lookup_cons, List.lookup_cons]
    cases hf : w == f.1 with
    | false => rfl
    | true =>
      have he : (w == e.1) = false := by
        rw [eq_of_beq hf]
        exact beq_eq_false_iff_ne.mpr hne.symm
      rw [he]
  | trans h _ ih ih' => rw [ih hnodup, ih' ((h.map Prod.fst).nodup_iff.mp hnodup)]

theorem letter_not_mem {w : Text} (h : IsWord w) : 'P' ∉ w := fun hmem =>
  absurd (folded_iff.mp h.folded 'P' hmem) (by decide)

theorem lookup_filter (entries : List (Text × Text)) (takes : Text → Bool) (w : Text) :
    (entries.filter fun e => takes e.1).lookup w = (entries.lookup w).filter fun _ => takes w := by
  induction entries with
  | nil => rfl
  | cons e entries ih =>
    rw [List.filter_cons, List.lookup_cons]
    cases hw : w == e.1 with
    | true =>
      rw [← eq_of_beq hw]
      cases htakes : takes w with
      | true =>
        rw [if_pos rfl, List.lookup_cons, hw]
        rfl
      | false =>
        rw [if_neg (by decide), ih, htakes, Option.filter_some, if_neg (by decide)]
        cases entries.lookup w <;> rfl
    | false =>
      split
      · rw [List.lookup_cons, hw, ih]
      · exact ih

/-- What is put in for a word, if it is a key that is taken. -/
def taken? (takes : Text → Bool) (table : Table Text) (w : Text) : Option Text :=
  (table.find? w).filter fun _ => takes w

/-- Keys that are words are phrases as they are. -/
theorem entries_keep_perm (h : ∀ key ∈ table.keys, IsWord key) :
    ((ofTable table).keep takes).entries.Perm (table.entries.filter fun e => takes e.1) := by
  have hfolded : ∀ e ∈ table.entries.mergeSort fun a b => (phraseOrder a.1 b.1).isLE,
      (fun e : Text × Text => (lower e.1, e.2)) e = e := by
    intro e he
    have hkey := (h e.1 (List.mem_map_of_mem (List.mem_mergeSort.mp he))).folded
    exact Prod.ext hkey rfl
  refine List.Perm.filter _ ?_
  rw [ofTable, List.map_congr_left hfolded, List.map_id']
  exact List.mergeSort_perm _ _

/-- Before any phrase is searched the sentence is told as it is. -/
theorem told_kept (ws : List Text) : told (exchange (located []) .kept none ws) = sentence ws := by
  show told (exchange (fun _ => none) .kept none ws) = sentence ws
  rw [exchange_none, told, List.map_map]
  congr 1
  exact (List.map_congr_left fun w _ => Term.written_kept w).trans (List.map_id ws)

/-- In the end the slots of the sentence are filled. -/
theorem fill_exchange (hlength : s.entries.length ≤ Nat.pow 2 64) (hws : ∀ w ∈ ws, IsWord w) :
    s.fill (told (exchange (located s.entries) .kept none ws)) =
      sentence (exchange (fun w => (located s.entries w).map Term.value) id none ws) := by
  rw [fill_told hlength ?_ ?_, map_exchange]
  · rfl
  · intro index phrase value hmem
    obtain ⟨w, -, hkept⟩ | ⟨w, hfound⟩ := mem_exchange hmem
    · cases hkept
    · obtain ⟨index', value', hterm, hentry⟩ := of_located hfound
      cases hterm
      exact hentry
  · intro w hmem
    obtain ⟨v, hv, hkept⟩ | ⟨v, hfound⟩ := mem_exchange hmem
    · cases hkept
      exact letter_not_mem (hws w hv)
    · obtain ⟨index, value, hterm, -⟩ := of_located hfound
      cases hterm

/-- Of words that are keys and taken, those are replaced whose neighbor on the left was not the same word and
replaced: in a row of equal words the first, the third and so on. Each word can be taken on its own
exactly if no key is its own neighbor. -/
theorem apply_sentence (takes : Text → Bool) (hkeys : ∀ key ∈ table.keys, IsWord key) (hnodup : table.keys.Nodup)
    (hlength : table.entries.length ≤ Nat.pow 2 64) (hws : ∀ w ∈ ws, IsWord w) :
    ((ofTable table).keep takes).apply (sentence ws) =
      sentence (exchange (taken? takes table) id none ws) ∧
    (exchange (taken? takes table) id none ws = ws.map (fun w => (taken? takes table w).getD w) ↔
      ws.IsChain fun v w => v = w → (taken? takes table w).getD w = w) := by
  refine ⟨?_, by simpa using @exchange_eq_map_iff ws (taken? takes table) none⟩
  have hperm := @entries_keep_perm table takes hkeys
  have hphrases : (((ofTable table).keep takes).entries.map Prod.fst).Nodup :=
    ((hperm.map Prod.fst).nodup_iff).mpr (hnodup.sublist (List.filter_sublist.map Prod.fst))
  have hwords : ∀ e ∈ ((ofTable table).keep takes).entries, Solid e.1 ∧ 'P' ∉ e.1 := by
    intro e he
    have hkey := hkeys e.1 (List.mem_map_of_mem (List.mem_of_mem_filter (hperm.mem_iff.mp he)))
    exact ⟨hkey.toSolid, letter_not_mem hkey⟩
  have hput : (fun w => (located ((ofTable table).keep takes).entries w).map Term.value) =
      taken? takes table := by
    funext w
    rw [located_value, lookup_of_perm hperm hphrases, lookup_filter]
    rfl
  have hplace := @placeAll_told [] _ ws (fun w hw => (hws w hw).toSolid) hwords hphrases
  rw [told_kept, List.nil_append, List.length_nil] at hplace
  rw [apply]
  split
  · rename_i hnil
    rw [hnil] at hput
    have hnone : taken? takes table = fun _ => none := hput.symm
    rw [hnone, exchange_none, List.map_id]
  · have hkept : ((ofTable table).keep takes).entries.length ≤ Nat.pow 2 64 :=
      hperm.length_eq ▸ (List.length_filter_le _ _).trans hlength
    rw [hplace, fill_exchange hkept hws, hput]

def greetings : Table Text := ⟨[("hi", "hello"), ("u", "you")]⟩

theorem greetings_sentence :
    (∀ key ∈ greetings.keys, IsWord key) ∧ greetings.keys.Nodup ∧
    greetings.entries.length ≤ Nat.pow 2 64 ∧
    (∀ w ∈ (["hi", "u", "hi", "hi", "hi"] : List Text), IsWord w) ∧
    ((ofTable greetings).keep fun _ => true).apply "hi u hi hi hi" = "hello you hello hi hello" := by
  have hkeys : ∀ key ∈ greetings.keys, IsWord key := by decide +kernel
  have hnodup : greetings.keys.Nodup := by decide
  have hlength : greetings.entries.length ≤ Nat.pow 2 64 := by decide
  have hws : ∀ w ∈ (["hi", "u", "hi", "hi", "hi"] : List Text), IsWord w := by decide +kernel
  exact ⟨hkeys, hnodup, hlength, hws, (apply_sentence _ hkeys hnodup hlength hws).1⟩

/-- The second of two words side by side is not replaced. -/
theorem second_neighbor_kept :
    (∀ key ∈ (["a"] : List Text), IsWord key) ∧
    (ofTable ⟨[("a", "b")]⟩).apply (sentence ["a", "a"]) ≠ sentence ["b", "b"] := by
  refine ⟨by decide +kernel, ?_⟩
  rw [ofTable, List.mergeSort_singleton]
  decide +kernel

end Applying

end Dialogue.Substitution
