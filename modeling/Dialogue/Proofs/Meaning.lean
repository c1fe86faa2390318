import Dialogue.Proofs.Courses
import Dialogue.Proofs.Interpolated
import Dialogue.Proofs.Openers

/-! What the stars of a match are. For each sign of the pattern that opens something remembered there is
one star, which is what that part of the pattern stands for in the message, or nothing if the part is not
taken. -/
namespace Dialogue

open Text

/-! ### How patterns are read -/

/-- What an item without choice stands for. -/
def Item.text? (s : Surroundings) : Item → Option Text
  | .literal c => some [c]
  | .blank => some [' ']
  | .tag body => some (s.value body)
  | _ => none

def Item.isWhite : Item → Bool
  | .literal c => isSpace c
  | .blank => true
  | _ => false

/-- What has been found for a sign comes before what has been found inside. -/
def withSign (remember : Bool) (sign : Char) (v : Text) (found : List (Char × Text)) :
    List (Char × Text) :=
  if remember then (sign, v) :: found else found

/-- Nothing is found for the signs of alternatives that are not taken. -/
def absent (remember : Bool) (as : List (List Item)) : List (Char × Text) :=
  if remember then (Item.openersOfEach as).map (·, []) else []

mutual

/-- An item stands for a part of a message, with what is found for each sign that opens something
remembered. White space may be left out. -/
inductive Item.Reads (s : Surroundings) : Bool → Item → Text → List (Char × Text) → Prop where
  | text {remember : Bool} {i : Item} {t : Text} : i.text? s = some t → Item.Reads s remember i t []
  | space {remember : Bool} {i : Item} : i.isWhite = true → Item.Reads s remember i [] []
  | wild {remember : Bool} {w : Wildcard} {v : Text} : v ≠ [] → (∀ c ∈ v, w.admits c = true) →
      Item.Reads s remember (.wild w) v (withSign remember w.sign v [])
  | member {remember : Bool} {name member : Text} {members : List Text} :
      s.arrays.find? name = some members → member ∈ members →
      Item.Reads s remember (.array name) (lower member) []
  | memberless {remember : Bool} {name : Text} : (s.arrays.find? name).getD [] = [] →
      Item.Reads s remember (.array name) [] []
  | choice {remember : Bool} {before after : List (List Item)} {is : List Item} {v : Text}
      {found : List (Char × Text)} : Item.ReadsAll s remember is v found →
      Item.Reads s remember (.choice (before ++ is :: after)) v
        (withSign remember '(' v (absent remember before ++ found ++ absent remember after))
  | nothing {remember : Bool} {as : List (List Item)} :
      (∀ is ∈ as, Item.ReadsAll s remember is [] []) →
      Item.Reads s remember (.choice as) [] (withSign remember '(' [] [])
  | option {remember : Bool} {as : List (List Item)} {is : List Item} {u v w : Text} : is ∈ as →
      (∀ c ∈ u, isSpace c = true) → (∀ c ∈ w, isSpace c = true) → Item.ReadsAll s false is v [] →
      Item.Reads s remember (.optional as) (u ++ (v ++ w)) []
  | gap {remember : Bool} {as : List (List Item)} {u : Text} : (∀ c ∈ u, isSpace c = true) →
      Item.Reads s remember (.optional as) u []

inductive Item.ReadsAll (s : Surroundings) :
    Bool → List Item → Text → List (Char × Text) → Prop where
  | nil {remember : Bool} : Item.ReadsAll s remember [] [] []
  | cons {remember : Bool} {i : Item} {is : List Item} {v u : Text} {found later : List (Char × Text)} :
      Item.Reads s remember i v found → Item.ReadsAll s remember is u later →
      Item.ReadsAll s remember (i :: is) (v ++ u) (found ++ later)

end

/-- A pattern stands for a message. -/
inductive Pattern.Reads (s : Surroundings) (pattern : Text) : Text → List (Char × Text) → Prop where
  | verbatim : Pattern.isVerbatim (Weight.strip pattern) = true →
      Pattern.Reads s pattern (collapse (Weight.strip pattern)) []
  | line {message : Text} : trim pattern = ['*'] → '\n' ∉ message →
      Pattern.Reads s pattern message [('*', message)]
  | items {message : Text} {is : List Item} {found : List (Char × Text)} :
      Pattern.items (Weight.strip pattern) = .ok is → Item.ReadsAll s true is message found →
      Pattern.Reads s pattern message found

/-- An item stands for a part of a message and remembers exactly what is found for its signs. -/
def Item.Takes (s : Surroundings) (remember : Bool) (i : Item) (v : Text) (xs : List Text) : Prop :=
  ∃ found, Item.Reads s remember i v found ∧
    found.map Prod.fst = (if remember then i.openers else []) ∧ found.map Prod.snd = xs

def Item.TakesAll (s : Surroundings) (remember : Bool) (is : List Item) (v : Text) (xs : List Text) :
    Prop :=
  ∃ found, Item.ReadsAll s remember is v found ∧
    found.map Prod.fst = (if remember then Item.openersOf is else []) ∧ found.map Prod.snd = xs

namespace Pattern

/-! ### Pieces -/

/-- White space may be left out at the start of a sequence and at its end. -/
inductive Edge where
  | start
  | inner
  | finish
  deriving DecidableEq

/-- Pieces stand for a text, from an edge on. -/
inductive ReadsPieces : Edge → List Piece → Text → List Text → Prop where
  | nil {edge : Edge} : ReadsPieces edge [] [] []
  | keep {edge : Edge} {ps : List Piece} {v : Text} {xs : List Text} (c : Char) : edge ≠ .finish →
      ReadsPieces .inner ps v xs → ReadsPieces edge (.char c :: ps) (c :: v) xs
  | start {ps : List Piece} {v : Text} {xs : List Text} {c : Char} : isSpace c = true →
      ReadsPieces .start ps v xs → ReadsPieces .start (.char c :: ps) v xs
  | finish {edge : Edge} {ps : List Piece} {v : Text} {xs : List Text} {c : Char} : isSpace c = true →
      ReadsPieces .finish ps v xs → ReadsPieces edge (.char c :: ps) v xs
  | part {edge : Edge} {e : Expression} {ps : List Piece} {v u : Text} {xs ys : List Text} :
      e.Reads v xs → ReadsPieces .inner ps u ys →
      ReadsPieces edge (.part e :: ps) (v ++ u) (xs ++ ys)

section Pieces

variable {s : Surroundings} {edge : Edge} {ps qs : List Piece} {t v : Text} {xs : List Text}

theorem of_append (h : ReadsPieces edge (ps ++ qs) v xs) :
    ∃ v₁ v₂ xs₁ xs₂ edge', v = v₁ ++ v₂ ∧ xs = xs₁ ++ xs₂ ∧ ReadsPieces edge ps v₁ xs₁ ∧
      ReadsPieces edge' qs v₂ xs₂ := by
  induction ps generalizing edge v xs with
  | nil => exact ⟨[], v, [], xs, edge, rfl, rfl, .nil, h⟩
  | cons p ps ih =>
    cases h with
    | keep c hedge h =>
      obtain ⟨v₁, v₂, xs₁, xs₂, edge', rfl, rfl, hps, hqs⟩ := ih h
      exact ⟨c :: v₁, v₂, xs₁, xs₂, edge', rfl, rfl, .keep c hedge hps, hqs⟩
    | start hc h =>
      obtain ⟨v₁, v₂, xs₁, xs₂, edge', rfl, rfl, hps, hqs⟩ := ih h
      exact ⟨v₁, v₂, xs₁, xs₂, edge', rfl, rfl, .start hc hps, hqs⟩
    | finish hc h =>
      obtain ⟨v₁, v₂, xs₁, xs₂, edge', rfl, rfl, hps, hqs⟩ := ih h
      exact ⟨v₁, v₂, xs₁, xs₂, edge', rfl, rfl, .finish hc hps, hqs⟩
    | part he h =>
      obtain ⟨v₁, v₂, xs₁, xs₂, edge', rfl, rfl, hps, hqs⟩ := ih h
      exact ⟨_, v₂, _, xs₂, edge', (List.append_assoc _ _ _).symm, (List.append_assoc _ _ _).symm,
        .part he hps, hqs⟩

/-- Behind the last character that is kept there is only white space. -/
theorem spaces_of_finish (h : ReadsPieces .finish (t.map .char) v xs) :
    v = [] ∧ xs = [] ∧ ∀ c ∈ t, isSpace c = true := by
  induction t generalizing v with
  | nil =>
    cases h
    exact ⟨rfl, rfl, List.forall_mem_nil _⟩
  | cons c t ih =>
    cases h with
    | keep c hedge h => exact absurd rfl hedge
    | finish hc h =>
      obtain ⟨hv, hxs, ht⟩ := ih h
      exact ⟨hv, hxs, List.forall_mem_cons.mpr ⟨hc, ht⟩⟩

/-- A text without white space at its end is read to the end. -/
theorem text_of_inner (hend : ∀ c, t.getLast? = some c → isSpace c = false)
    (h : ReadsPieces .inner (t.map .char) v xs) : v = t ∧ xs = [] := by
  induction t generalizing v with
  | nil =>
    cases h
    exact ⟨rfl, rfl⟩
  | cons c t ih =>
    have hlast : ∀ d, t.getLast? = some d → isSpace d = false := by
      intro d hd
      apply hend
      rw [List.getLast?_cons, hd, Option.getD_some]
    cases h with
    | keep c hedge h =>
      obtain ⟨rfl, hxs⟩ := ih hlast h
      exact ⟨rfl, hxs⟩
    | finish hc h =>
      obtain ⟨-, -, ht⟩ := spaces_of_finish h
      obtain ⟨d, hd⟩ : ∃ d, (c :: t).getLast? = some d :=
        ⟨_, List.getLast?_eq_some_getLast (List.cons_ne_nil c t)⟩
      have hspaces : ∀ d ∈ c :: t, isSpace d = true := List.forall_mem_cons.mpr ⟨hc, ht⟩
      have hspace := hspaces d (List.mem_of_getLast? hd)
      rw [hend d hd] at hspace
      cases hspace

/-- A text without white space around it is read as it is. -/
theorem text_of_chars (ht : trim t = t) (h : ReadsPieces edge (t.map .char) v xs) : v = t ∧ xs = [] := by
  have hstart : ∀ c, t.head? = some c → isSpace c = false := fun c hc =>
    isSpace_head (by rw [ht]; exact hc)
  have hend : ∀ c, t.getLast? = some c → isSpace c = false := fun c hc =>
    isSpace_getLast (by rw [ht]; exact hc)
  cases t with
  | nil =>
    cases h
    exact ⟨rfl, rfl⟩
  | cons c t =>
    have hc := hstart c rfl
    cases h with
    | keep c hedge h => exact text_of_inner hend (.keep c (by decide) h)
    | start hspace | finish hspace =>
      rw [hc] at hspace
      cases hspace

theorem text_of_char {c : Char} (h : ReadsPieces edge [.char c] v xs) :
    xs = [] ∧ (v = [c] ∨ isSpace c = true ∧ v = []) := by
  cases h with
  | keep c hedge h =>
    cases h
    exact ⟨rfl, .inl rfl⟩
  | start hc h | finish hc h =>
    cases h
    exact ⟨rfl, .inr ⟨hc, rfl⟩⟩

theorem finish_append (h : ReadsPieces edge ps v xs) (hqs : ∀ p ∈ qs, p.isSpace = true) :
    ReadsPieces edge (ps ++ qs) v xs := by
  induction h with
  | @nil edge =>
    rw [List.nil_append]
    induction qs generalizing edge with
    | nil => exact .nil
    | cons q qs ih =>
      obtain ⟨hq, hrest⟩ := List.forall_mem_cons.mp hqs
      cases q with
      | char c => exact .finish hq (ih hrest)
      | part e => cases hq
  | keep c hedge _ ih => exact .keep c hedge ih
  | start hc _ ih => exact .start hc ih
  | finish hc _ ih => exact .finish hc ih
  | part he _ ih => exact .part he ih

theorem start_append (hqs : ∀ p ∈ qs, p.isSpace = true) (h : ReadsPieces .start ps v xs) :
    ReadsPieces .start (qs ++ ps) v xs := by
  induction qs with
  | nil => exact h
  | cons q qs ih =>
    obtain ⟨hq, hrest⟩ := List.forall_mem_cons.mp hqs
    cases q with
    | char c => exact .start hq (ih hrest)
    | part e => cases hq

theorem isSpace_of_isBlank {p : Piece} (h : p.isBlank = true) : p.isSpace = true := by
  cases p with
  | char c =>
    have hc : c = ' ' := by simpa [Piece.isBlank] using h
    rw [hc]
    decide
  | part e => cases h

theorem of_dropBlanks (h : ReadsPieces edge (dropBlanks ps) v xs) : ReadsPieces edge ps v xs := by
  have hsplit : dropBlanks ps ++ (ps.reverse.takeWhile Piece.isBlank).reverse = ps := by
    rw [dropBlanks, ← List.reverse_append, List.takeWhile_append_dropWhile, List.reverse_reverse]
  rw [← hsplit]
  refine finish_append h fun p hp => ?_
  exact isSpace_of_isBlank (List.mem_takeWhile_imp (List.mem_reverse.mp hp))

theorem of_trimPieces (h : ReadsPieces .start (trimPieces ps) v xs) : ReadsPieces .start ps v xs := by
  have hsplit : ps.takeWhile Piece.isSpace ++ (trimPieces ps ++
      ((ps.dropWhile Piece.isSpace).reverse.takeWhile Piece.isSpace).reverse) = ps := by
    rw [trimPieces, ← List.reverse_append, List.takeWhile_append_dropWhile, List.reverse_reverse,
      List.takeWhile_append_dropWhile]
  rw [← hsplit]
  refine start_append (fun p hp => List.mem_takeWhile_imp hp) (finish_append h fun p hp => ?_)
  exact List.mem_takeWhile_imp (List.mem_reverse.mp hp)

/-- Characters in a row are one literal. -/
theorem of_join_char {c : Char} (h : (join (.char c :: ps)).Reads v xs) :
    ∃ u, v = c :: u ∧ (join ps).Reads u xs := by
  rw [join] at h
  split at h
  · rename_i t ht
    cases h
    exact ⟨t, rfl, ht ▸ .literal t⟩
  · rename_i t e ht
    cases h with
    | seq ha hb =>
      cases ha
      exact ⟨_, rfl, ht ▸ .seq (.literal t) hb⟩
  · cases h with
    | seq ha hb =>
      cases ha
      exact ⟨_, rfl, hb⟩

theorem of_join (hedge : edge ≠ .finish) (h : (join ps).Reads v xs) : ReadsPieces edge ps v xs := by
  induction ps generalizing edge v xs with
  | nil =>
    cases h
    exact .nil
  | cons p ps ih =>
    have hinner : Edge.inner ≠ .finish := by decide
    cases p with
    | char c =>
      obtain ⟨u, rfl, hu⟩ := of_join_char h
      exact .keep c hedge (ih hinner hu)
    | part e =>
      cases ps with
      | nil =>
        rw [join] at h
        have hwhole : ReadsPieces edge [.part e] (v ++ []) (xs ++ []) := .part h .nil
        rwa [List.append_nil, List.append_nil] at hwhole
      | cons q ps =>
        rw [join] at h
        · cases h with
          | seq he hps => exact .part he (ih hinner hps)
        · exact List.cons_ne_nil q ps

end Pieces

/-! ### How much is remembered -/

/-- How much some expressions remember, one after the other or one instead of the other. -/
def capturesOfEach : List Expression → Nat
  | [] => 0
  | e :: es => e.captures + capturesOfEach es

def capturesOf (ps : List Piece) : Nat := capturesOfEach (parts ps)

section Counting

variable {s : Surroundings}

theorem capturesOfEach_append (es fs : List Expression) :
    capturesOfEach (es ++ fs) = capturesOfEach es + capturesOfEach fs := by
  induction es with
  | nil => exact (Nat.zero_add _).symm
  | cons e es ih => rw [List.cons_append, capturesOfEach, capturesOfEach, ih, Nat.add_assoc]

@[simp] theorem capturesOf_append (ps qs : List Piece) :
    capturesOf (ps ++ qs) = capturesOf ps + capturesOf qs := by
  rw [capturesOf, parts_append, capturesOfEach_append]
  rfl

@[simp] theorem capturesOf_char (c : Char) (ps : List Piece) :
    capturesOf (.char c :: ps) = capturesOf ps := rfl

@[simp] theorem capturesOf_part (e : Expression) (ps : List Piece) :
    capturesOf (.part e :: ps) = e.captures + capturesOf ps := rfl

@[simp] theorem capturesOf_nil : capturesOf [] = 0 := rfl

theorem capturesOf_chars (t : Text) : capturesOf (t.map .char) = 0 := by
  induction t with
  | nil => rfl
  | cons c t ih => exact ih

theorem captures_join (ps : List Piece) : (join ps).captures = capturesOf ps := by
  fun_induction join ps with
  | case1 => rfl
  | case2 e => simp
  | case3 e ps hps ih => simp [Expression.captures, ih]
  | case4 c ps t hjoin ih =>
    rw [hjoin] at ih
    simpa [Expression.captures] using ih
  | case5 c ps t e hjoin ih =>
    rw [hjoin] at ih
    simpa [Expression.captures] using ih
  | case6 c ps _ _ ih => simpa [Expression.captures] using ih

theorem captures_eitherOf (es : List Expression) :
    (Expression.eitherOf es).captures = capturesOfEach es := by
  fun_induction Expression.eitherOf es with
  | case1 => rfl
  | case2 e => simp [capturesOfEach]
  | case3 e es _ ih => rw [Expression.captures, ih, capturesOfEach]

theorem alternatives_cons (ps : List Piece) (as : List (List Piece)) :
    alternatives (ps :: as) =
      if trimPieces ps = [] then alternatives as else join (trimPieces ps) :: alternatives as := by
  rw [alternatives, List.map_cons, List.filter_cons]
  cases trimPieces ps <;> rfl

theorem captures_alternatives (as : List (List Piece)) :
    capturesOfEach (alternatives as) = capturesOfEach (as.flatMap parts) := by
  induction as with
  | nil => rfl
  | cons ps as ih =>
    rw [alternatives_cons, List.flatMap_cons, capturesOfEach_append, ← ih, ← parts_trimPieces]
    split
    · rename_i hnil
      rw [hnil]
      exact (Nat.zero_add _).symm
    · rw [capturesOfEach, captures_join, capturesOf]

theorem captures_optionalOf (es : List Expression) : (optionalOf es).captures = capturesOfEach es := by
  rw [optionalOf, Expression.captures, captures_eitherOf, if_neg Bool.false_ne_true]
  induction es with
  | nil => rfl
  | cons e es ih =>
    rw [List.map_cons, List.cons_append, capturesOfEach, ih, capturesOfEach]
    simp [Expression.captures]

theorem capturesOfEach_members (members : List Text) :
    capturesOfEach (members.map fun m => .literal (lower m)) = 0 := by
  induction members with
  | nil => rfl
  | cons m members ih => rw [List.map_cons, capturesOfEach, ih, Expression.captures]

theorem capturesOf_arrayPieces (s : Surroundings) (name : Text) :
    capturesOf (arrayPieces s name) = 0 := by
  rw [arrayPieces]
  split
  · simp [Expression.captures, captures_eitherOf, capturesOfEach_members]
  · rfl

theorem piecesOfEach_eq_map (s : Surroundings) (remember : Bool) (as : List (List Item)) :
    piecesOfEach s remember as = as.map (piecesFrom s remember []) := by
  induction as with
  | nil => rfl
  | cons is as ih => rw [piecesOfEach, ih, List.map_cons]

mutual

theorem captures_addTo (s : Surroundings) (remember : Bool) (ps : List Piece) (i : Item) :
    capturesOf (Item.addTo s remember ps i) =
      capturesOf ps + if remember then i.openers.length else 0 := by
  cases i with
  | literal c => simp [Item.addTo, Item.openers]
  | blank =>
    have hseparator : capturesOf (addSeparator ps) = capturesOf ps :=
      congrArg capturesOfEach (parts_addSeparator ps)
    simp [Item.addTo, Item.openers, hseparator]
  | wild w => cases remember <;> simp [Item.addTo, Item.openers, Expression.captures]
  | array name => simp [Item.addTo, Item.openers, capturesOf_arrayPieces]
  | tag body => simp [Item.addTo, Item.openers, capturesOf_chars]
  | choice as =>
    have heach := captures_piecesOfEach s remember as
    rw [Item.addTo, capturesOf_append, capturesOf_part, capturesOf_nil, Expression.captures,
      captures_eitherOf, captures_alternatives, heach]
    cases remember <;> simp [Item.openers]
  | optional as =>
    have heach := captures_piecesOfEach s false as
    have hblanks : capturesOf (dropBlanks ps) = capturesOf ps :=
      congrArg capturesOfEach (parts_dropBlanks ps)
    simp [Item.addTo, Item.openers, hblanks, captures_optionalOf, captures_alternatives, heach]

theorem captures_piecesFrom (s : Surroundings) (remember : Bool) (ps : List Piece) (is : List Item) :
    capturesOf (piecesFrom s remember ps is) =
      capturesOf ps + if remember then (Item.openersOf is).length else 0 := by
  cases is with
  | nil => simp [piecesFrom, Item.openersOf]
  | cons i is =>
    rw [piecesFrom, captures_piecesFrom s remember _ is, captures_addTo s remember ps i]
    cases remember <;> simp [Item.openersOf, Nat.add_assoc]

theorem captures_piecesOfEach (s : Surroundings) (remember : Bool) (as : List (List Item)) :
    capturesOfEach ((piecesOfEach s remember as).flatMap parts) =
      if remember then (Item.openersOfEach as).length else 0 := by
  cases as with
  | nil => simp [piecesOfEach, Item.openersOfEach, capturesOfEach]
  | cons is as =>
    have his := captures_piecesFrom s remember [] is
    rw [capturesOf] at his
    rw [piecesOfEach, List.flatMap_cons, capturesOfEach_append, his, captures_piecesOfEach s remember as]
    cases remember <;> simp [Item.openersOfEach]

end

/-- As much is remembered for alternatives as their signs open. -/
theorem captures_of_alternatives (s : Surroundings) (remember : Bool) (as : List (List Item)) :
    List.replicate (capturesOfEach (alternatives (piecesOfEach s remember as))) ([] : Text) =
      (absent remember as).map Prod.snd := by
  rw [captures_alternatives, captures_piecesOfEach, absent]
  cases remember with
  | false => rfl
  | true => simp [Function.comp_def]

end Counting

/-! ### Alternatives -/

section Choosing

variable {s : Surroundings} {remember : Bool} {as : List (List Item)} {es before after : List Expression}
  {e : Expression} {v : Text} {xs : List Text}

theorem of_eitherOf (h : (Expression.eitherOf es).Reads v xs) : (es = [] ∧ v = [] ∧ xs = []) ∨
    ∃ before e after ys, es = before ++ e :: after ∧ e.Reads v ys ∧
      xs = List.replicate (capturesOfEach before) [] ++
        (ys ++ List.replicate (capturesOfEach after) []) := by
  induction es generalizing v xs with
  | nil =>
    cases h
    exact .inl ⟨rfl, rfl, rfl⟩
  | cons e es ih =>
    cases es with
    | nil => exact .inr ⟨[], e, [], xs, rfl, h, (List.append_nil xs).symm⟩
    | cons e' es =>
      have hother : (e' :: es : List Expression) ≠ [] := List.cons_ne_nil _ _
      cases h with
      | first h => exact .inr ⟨[], e, e' :: es, _, rfl, h, by rw [captures_eitherOf]; rfl⟩
      | second h =>
        obtain ⟨hnil, -, -⟩ | ⟨before, e'', after, ys, hes, he, rfl⟩ := ih h
        · exact absurd hnil hother
        · refine .inr ⟨e :: before, e'', after, ys, congrArg (e :: ·) hes, he, ?_⟩
          rw [capturesOfEach, List.replicate_add, List.append_assoc]

theorem of_alternatives {as : List (List Piece)} (h : alternatives as = before ++ e :: after) :
    ∃ as₁ ps as₂, as = as₁ ++ ps :: as₂ ∧ alternatives as₁ = before ∧ join (trimPieces ps) = e ∧
      alternatives as₂ = after := by
  induction as generalizing before with
  | nil => simp [alternatives] at h
  | cons ps as ih =>
    rw [alternatives_cons] at h
    split at h
    · rename_i hnil
      obtain ⟨as₁, qs, as₂, rfl, hbefore, he, hafter⟩ := ih h
      refine ⟨ps :: as₁, qs, as₂, rfl, ?_, he, hafter⟩
      rw [alternatives_cons, if_pos hnil, hbefore]
    · rename_i hne
      cases before with
      | nil =>
        obtain ⟨he, hafter⟩ := List.cons.inj h
        exact ⟨[], ps, as, rfl, rfl, he, hafter⟩
      | cons first before =>
        obtain ⟨hfirst, hrest⟩ := List.cons.inj h
        obtain ⟨as₁, qs, as₂, rfl, hbefore, he, hafter⟩ := ih hrest
        refine ⟨ps :: as₁, qs, as₂, rfl, ?_, he, hafter⟩
        rw [alternatives_cons, if_neg hne, hbefore, hfirst]

/-- Each alternative of a pattern has its place among the alternatives that are matched. -/
theorem of_piecesOfEach (h : alternatives (piecesOfEach s remember as) = before ++ e :: after)
    (he : e.Reads v xs) : ∃ as₁ is as₂, as = as₁ ++ is :: as₂ ∧
      alternatives (piecesOfEach s remember as₁) = before ∧
      alternatives (piecesOfEach s remember as₂) = after ∧
      ReadsPieces .start (piecesFrom s remember [] is) v xs := by
  obtain ⟨qs₁, ps, qs₂, has, hbefore, rfl, hafter⟩ := of_alternatives h
  rw [piecesOfEach_eq_map] at has
  obtain ⟨as₁, rest, rfl, hqs₁, hrest⟩ := List.map_eq_append_iff.mp has
  obtain ⟨is, as₂, rfl, rfl, hqs₂⟩ := List.map_eq_cons_iff.mp hrest
  refine ⟨as₁, is, as₂, rfl, ?_, ?_, of_trimPieces (of_join (by decide) he)⟩
  · rw [piecesOfEach_eq_map, hqs₁, hbefore]
  · rw [piecesOfEach_eq_map, hqs₂, hafter]

/-- Where no alternative is left, all of them can stand for nothing. -/
theorem readsPieces_of_alternatives (h : alternatives (piecesOfEach s remember as) = []) :
    ∀ is ∈ as, ReadsPieces .start (piecesFrom s remember [] is) [] [] := by
  induction as with
  | nil => exact List.forall_mem_nil _
  | cons is as ih =>
    rw [piecesOfEach, alternatives_cons] at h
    split at h
    · rename_i hnil
      refine List.forall_mem_cons.mpr ⟨of_trimPieces ?_, ih h⟩
      rw [hnil]
      exact .nil
    · cases h

end Choosing

/-! ### Items -/

section Items

variable {s : Surroundings} {remember : Bool} {as : List (List Item)} {ps : List Piece} {i : Item}
  {is : List Item} {t v u : Text} {xs ys : List Text}

/-- What items add to pieces stands for a part of its own. -/
def Adds (ps : List Piece) (takes : Text → List Text → Prop) (v : Text) (xs : List Text) : Prop :=
  ∃ v₁ v₂ xs₁ xs₂, v = v₁ ++ v₂ ∧ xs = xs₁ ++ xs₂ ∧ ReadsPieces .start ps v₁ xs₁ ∧ takes v₂ xs₂

theorem takes_text (ht : i.text? s = some t) : i.Takes s remember t [] := by
  refine ⟨[], .text ht, ?_, rfl⟩
  cases i with
  | literal | blank | tag => exact (ite_self []).symm
  | wild | array | choice | optional => cases ht

theorem takes_space (hi : i.isWhite = true) : i.Takes s remember [] [] := by
  refine ⟨[], .space hi, ?_, rfl⟩
  cases i with
  | literal | blank => exact (ite_self []).symm
  | tag | wild | array | choice | optional => cases hi

theorem takes_wild {w : Wildcard} (hne : v ≠ []) (hv : ∀ c ∈ v, w.admits c = true) :
    (Item.wild w).Takes s remember v (if remember then [v] else []) := by
  refine ⟨_, .wild hne hv, ?_, ?_⟩ <;> cases remember <;> rfl

theorem takesAll_nil : Item.TakesAll s remember [] [] [] := by
  refine ⟨[], .nil, ?_, rfl⟩
  cases remember <;> rfl

theorem takesAll_cons (hi : i.Takes s remember v xs) (his : Item.TakesAll s remember is u ys) :
    Item.TakesAll s remember (i :: is) (v ++ u) (xs ++ ys) := by
  obtain ⟨found, hreads, hfst, rfl⟩ := hi
  obtain ⟨later, hlater, hfst', rfl⟩ := his
  refine ⟨found ++ later, .cons hreads hlater, ?_, List.map_append⟩
  rw [List.map_append, hfst, hfst']
  cases remember <;> rfl

theorem takes_choice
    (heach : ∀ is ∈ as, ∀ v xs, ReadsPieces .start (piecesFrom s remember [] is) v xs →
      Item.TakesAll s remember is v xs)
    (h : (Expression.eitherOf (alternatives (piecesOfEach s remember as))).Reads v xs) :
    (Item.choice as).Takes s remember v (if remember then v :: xs else xs) := by
  obtain ⟨hnil, rfl, rfl⟩ | ⟨before, e, after, ys, hsplit, he, rfl⟩ := of_eitherOf h
  · have hall : ∀ is ∈ as,
        Item.ReadsAll s remember is [] [] ∧ (remember = true → Item.openersOf is = []) := by
      intro is his
      obtain ⟨found, hreads, hfst, hsnd⟩ := heach is his [] [] (readsPieces_of_alternatives hnil is his)
      obtain rfl := List.map_eq_nil_iff.mp hsnd
      exact ⟨hreads, fun hr => by rw [hr] at hfst; exact hfst.symm⟩
    have hopeners : remember = true → Item.openersOfEach as = [] := by
      intro hr
      clear heach h hnil
      induction as with
      | nil => rfl
      | cons is as ih =>
        obtain ⟨his, has⟩ := List.forall_mem_cons.mp hall
        rw [Item.openersOfEach, his.2 hr, ih has, List.append_nil]
    refine ⟨_, .nothing fun is his => (hall is his).1, ?_, ?_⟩
    · cases remember with
      | false => rfl
      | true => simp [withSign, Item.openers, hopeners rfl]
    · cases remember <;> rfl
  · obtain ⟨as₁, is, as₂, rfl, rfl, rfl, hpieces⟩ := of_piecesOfEach hsplit he
    obtain ⟨found, hreads, hfst, rfl⟩ := heach is (by simp) _ _ hpieces
    refine ⟨_, .choice hreads, ?_, ?_⟩
    · cases remember with
      | false => simp [withSign, absent, hfst]
      | true =>
        simp [withSign, absent, hfst, Item.openers, Item.openersOfEach_append, Item.openersOfEach,
          Function.comp_def]
    · rw [captures_of_alternatives, captures_of_alternatives]
      cases remember <;> simp [withSign]

theorem takes_gap (h : ∀ c ∈ v, isSpace c = true) : (Item.optional as).Takes s remember v [] := by
  refine ⟨[], .gap h, ?_, rfl⟩
  cases remember <;> rfl

/-- An alternative of an optional part has a gap on both sides. -/
theorem of_option {e : Expression} (h : (Expression.seq .gap (.seq e .gap)).Reads v xs) :
    ∃ u w z, v = u ++ (w ++ z) ∧ (∀ c ∈ u, isSpace c = true) ∧ (∀ c ∈ z, isSpace c = true) ∧
      e.Reads w xs := by
  cases h with
  | seq hstart hrest =>
    cases hstart with
    | gap hstart =>
      cases hrest with
      | seq he hend =>
        cases hend with
        | gap hend =>
          rw [List.nil_append, List.append_nil]
          exact ⟨_, _, _, rfl, hstart, hend, he⟩

theorem takes_optional
    (heach : ∀ is ∈ as, ∀ v xs, ReadsPieces .start (piecesFrom s false [] is) v xs →
      Item.TakesAll s false is v xs)
    (h : (optionalOf (alternatives (piecesOfEach s false as))).Reads v xs) :
    (Item.optional as).Takes s remember v xs := by
  have hxs : xs = [] := by
    have hlength := h.length
    rw [captures_optionalOf, captures_alternatives, captures_piecesOfEach] at hlength
    exact List.length_eq_zero_iff.mp hlength
  rw [optionalOf] at h
  cases h with
  | group h =>
    obtain ⟨hnil, -, -⟩ | ⟨before, e, after, ys, hsplit, he, hys⟩ := of_eitherOf h
    · exact absurd hnil (List.append_ne_nil_of_right_ne_nil _ (List.cons_ne_nil _ _))
    · obtain rfl : ys = [] := by
        rw [hxs, eq_comm, List.append_eq_nil_iff, List.append_eq_nil_iff] at hys
        exact hys.2.1
      rw [hxs]
      have hmem : e ∈ (alternatives (piecesOfEach s false as)).map (fun e => .seq .gap (.seq e .gap)) ++
          [.gap] := by
        rw [hsplit]
        exact List.mem_append_right _ List.mem_cons_self
      rcases List.mem_append.mp hmem with hoption | hgap
      · obtain ⟨e, halternative, rfl⟩ := List.mem_map.mp hoption
        obtain ⟨first, last, halternatives⟩ := List.append_of_mem halternative
        obtain ⟨u, w, z, rfl, hu, hz, he⟩ := of_option he
        obtain ⟨as₁, is, as₂, rfl, -, -, hpieces⟩ := of_piecesOfEach halternatives he
        have his : is ∈ as₁ ++ is :: as₂ := List.mem_append_right _ List.mem_cons_self
        obtain ⟨found, hreads, -, hsnd⟩ := heach is his _ _ hpieces
        obtain rfl := List.map_eq_nil_iff.mp hsnd
        refine ⟨[], .option his hu hz hreads, ?_, rfl⟩
        cases remember <;> rfl
      · rw [List.mem_singleton.mp hgap] at he
        cases he with
        | gap hspaces => exact takes_gap hspaces

/-- A single part that is added last stands for what is left. -/
theorem adds_part {e : Expression} {takes : Text → List Text → Prop}
    (h : ReadsPieces .start (ps ++ [.part e]) v xs) (he : ∀ v xs, e.Reads v xs → takes v xs) :
    Adds ps takes v xs := by
  obtain ⟨v₁, v₂, xs₁, xs₂, edge, rfl, rfl, hps, hpart⟩ := of_append h
  cases hpart with
  | part hreads hnil =>
    cases hnil
    rw [List.append_nil, List.append_nil]
    exact ⟨v₁, _, xs₁, _, rfl, rfl, hps, he _ _ hreads⟩

/-- White space that is added last stands for itself or is left out. -/
theorem adds_char {c : Char} (ht : i.text? s = some [c]) (hi : i.isWhite = isSpace c)
    (h : ReadsPieces .start (ps ++ [.char c]) v xs) : Adds ps (i.Takes s remember) v xs := by
  obtain ⟨v₁, v₂, xs₁, xs₂, edge, rfl, rfl, hps, hchar⟩ := of_append h
  obtain ⟨rfl, rfl | ⟨hspace, rfl⟩⟩ := text_of_char hchar
  · exact ⟨v₁, _, xs₁, _, rfl, rfl, hps, takes_text ht⟩
  · exact ⟨v₁, _, xs₁, _, rfl, rfl, hps, takes_space (hi.trans hspace)⟩

theorem adds_separator (h : ReadsPieces .start (addSeparator ps) v xs) :
    Adds ps (Item.blank.Takes s remember) v xs := by
  have hleft : ReadsPieces .start ps v xs → Adds ps (Item.blank.Takes s remember) v xs := fun h =>
    ⟨v, [], xs, [], (List.append_nil v).symm, (List.append_nil xs).symm, h, takes_space rfl⟩
  rw [addSeparator] at h
  split at h
  · exact hleft h
  · split at h
    · exact hleft h
    · exact adds_char (i := .blank) rfl rfl h

/-- Values have no white space around them, which might be left out. -/
theorem trim_value (s : Surroundings) (body : Text) : trim (s.value body) = s.value body := by
  have hcanonical : ∀ v, trim (s.canonical v) = s.canonical v := fun v =>
    trim_of_collapse (collapse_collapse _)
  have htag : ∀ t : Text, trim (['<'] ++ t ++ ['>']) = ['<'] ++ t ++ ['>'] := by
    intro t
    have hends : isSpace '<' = false ∧ isSpace '>' = false := by decide
    simp [trim, trimStart, trimEnd, hends.1, hends.2]
  rw [Surroundings.value]
  split
  · generalize s.botVars.find? _ = found
    cases found with
    | none => rfl
    | some v => exact hcanonical v
  · generalize s.userVars.find? _ = found
    cases found with
    | none =>
      show trim undefinedText = undefinedText
      decide
    | some v => exact hcanonical v
  · exact hcanonical _
  · exact hcanonical _
  · exact htag _

theorem adds_tag {body : Text} (h : ReadsPieces .start (ps ++ (s.value body).map .char) v xs) :
    Adds ps ((Item.tag body).Takes s remember) v xs := by
  obtain ⟨v₁, v₂, xs₁, xs₂, edge, rfl, rfl, hps, hchars⟩ := of_append h
  obtain ⟨rfl, rfl⟩ := text_of_chars (trim_value s body) hchars
  exact ⟨v₁, _, xs₁, _, rfl, rfl, hps, takes_text rfl⟩

theorem adds_array {name : Text} (h : ReadsPieces .start (ps ++ arrayPieces s name) v xs) :
    Adds ps ((Item.array name).Takes s remember) v xs := by
  have hopeners : ∀ v, Item.Reads s remember (.array name) v [] →
      (Item.array name).Takes s remember v [] := by
    intro v hreads
    exact ⟨[], hreads, (ite_self []).symm, rfl⟩
  rw [arrayPieces] at h
  split at h
  · rename_i members hfind
    refine adds_part h ?_
    intro v xs hreads
    cases hreads with
    | group hreads =>
      have hxs : xs = [] := by
        have hlength := hreads.length
        rw [captures_eitherOf, capturesOfEach_members] at hlength
        exact List.length_eq_zero_iff.mp hlength
      subst hxs
      obtain ⟨hnil, rfl, -⟩ | ⟨before, e, after, ys, hsplit, he, -⟩ := of_eitherOf hreads
      · refine hopeners [] (.memberless ?_)
        rw [hfind]
        exact List.map_eq_nil_iff.mp hnil
      · have hmem : e ∈ members.map fun m => .literal (lower m) := by
          rw [hsplit]
          exact List.mem_append_right _ List.mem_cons_self
        obtain ⟨member, hmember, rfl⟩ := List.mem_map.mp hmem
        cases he
        exact hopeners _ (.member hfind hmember)
  · rename_i hfind
    rw [List.append_nil] at h
    exact ⟨v, [], xs, [], (List.append_nil v).symm, (List.append_nil xs).symm, h,
      hopeners [] (.memberless (by rw [hfind]; rfl))⟩

mutual

theorem adds_addTo (s : Surroundings) (remember : Bool) (ps : List Piece) (i : Item)
    {v : Text} {xs : List Text} (h : ReadsPieces .start (Item.addTo s remember ps i) v xs) :
    Adds ps (i.Takes s remember) v xs := by
  cases i with
  | literal c => exact adds_char rfl rfl h
  | blank => exact adds_separator h
  | wild w =>
    refine adds_part h ?_
    intro v xs hreads
    cases hreads with
    | group hreads =>
      cases hreads with
      | wild hne hv => exact takes_wild hne hv
    | remember hreads =>
      cases hreads with
      | wild hne hv => exact takes_wild hne hv
  | array name => exact adds_array h
  | tag body => exact adds_tag h
  | choice as =>
    have heach := takes_piecesOfEach s remember as
    refine adds_part h ?_
    intro v xs hreads
    cases hreads with
    | group hreads => exact takes_choice heach hreads
    | remember hreads => exact takes_choice heach hreads
  | optional as =>
    have heach := takes_piecesOfEach s false as
    obtain ⟨v₁, v₂, xs₁, xs₂, hv, hxs, hps, htakes⟩ := adds_part h fun v xs => takes_optional heach
    exact ⟨v₁, v₂, xs₁, xs₂, hv, hxs, of_dropBlanks hps, htakes⟩

theorem adds_piecesFrom (s : Surroundings) (remember : Bool) (ps : List Piece) (is : List Item)
    {v : Text} {xs : List Text} (h : ReadsPieces .start (piecesFrom s remember ps is) v xs) :
    Adds ps (Item.TakesAll s remember is) v xs := by
  cases is with
  | nil =>
    exact ⟨v, [], xs, [], (List.append_nil v).symm, (List.append_nil xs).symm, h, takesAll_nil⟩
  | cons i is =>
    obtain ⟨v₁, v₂, xs₁, xs₂, rfl, rfl, hps, his⟩ := adds_piecesFrom s remember _ is h
    obtain ⟨w₁, w₂, ys₁, ys₂, rfl, rfl, hps, hi⟩ := adds_addTo s remember ps i hps
    exact ⟨w₁, w₂ ++ v₂, ys₁, ys₂ ++ xs₂, List.append_assoc _ _ _, List.append_assoc _ _ _, hps,
      takesAll_cons hi his⟩

theorem takes_piecesOfEach (s : Surroundings) (remember : Bool) (as : List (List Item)) :
    ∀ is ∈ as, ∀ v xs, ReadsPieces .start (piecesFrom s remember [] is) v xs →
      Item.TakesAll s remember is v xs := by
  cases as with
  | nil => exact List.forall_mem_nil _
  | cons is as =>
    refine List.forall_mem_cons.mpr ⟨?_, takes_piecesOfEach s remember as⟩
    intro v xs h
    obtain ⟨v₁, v₂, xs₁, xs₂, rfl, rfl, hps, his⟩ := adds_piecesFrom s remember [] is h
    cases hps
    exact his

end

/-- A match of items is made of matches of each. -/
theorem takesAll_of_match? {message : Text} {stars : List Text}
    (h : (expression s is).match? message = some stars) : Item.TakesAll s true is message stars := by
  have hpieces : ReadsPieces .start (piecesFrom s true [] is) message stars :=
    of_join (by decide) (Expression.reads_of_match? h)
  obtain ⟨v₁, v₂, xs₁, xs₂, rfl, rfl, hnil, htakes⟩ := adds_piecesFrom s true [] is hpieces
  cases hnil
  exact htakes

end Items

end Pattern

end Dialogue
