import Dialogue.Proofs.Brackets
import Dialogue.Proofs.Features

/-! What a pattern remembers. That can be seen from its text alone: every wildcard and every round
bracket opens something that is remembered, unless it stands in square brackets, in a tag, in the name
of an array or behind a backslash. -/
namespace Dialogue

open Text

def Wildcard.sign (w : Wildcard) : Char := (Feature.wild w).sign

namespace Pattern

/-- Where a reader of a pattern is. -/
inductive Spot where
  | plain
  | escaped
  | name
  | tag
  deriving DecidableEq

def isOpener (c : Char) : Bool := c == '*' || c == '#' || c == '_' || c == '('

/-- The signs that open something remembered, from left to right, where `squares` square brackets are
open. -/
def openersFrom : Spot → (squares : Nat) → Text → List Char
  | _, _, [] => []
  | spot, squares, c :: t =>
    if spot = .escaped then openersFrom .plain squares t
    else if spot = .tag then openersFrom (if c = '>' then .plain else .tag) squares t
    else if spot = .name ∧ isNameChar c then openersFrom .name squares t
    else match c with
      | '\\' => openersFrom .escaped squares t
      | '<' => openersFrom .tag squares t
      | '@' => openersFrom .name squares t
      | '[' => openersFrom .plain (squares + 1) t
      | ']' => openersFrom .plain (squares - 1) t
      | c => (if squares = 0 ∧ isOpener c then [c] else []) ++ openersFrom .plain squares t

def openers (t : Text) : List Char := openersFrom .plain 0 t

def opener : Token → List Char
  | .wild w => [w.sign]
  | .opening .round => ['(']
  | _ => []

def squaresAfter (squares : Nat) : Token → Nat
  | .opening .square => squares + 1
  | .closing .square => squares - 1
  | _ => squares

def tokenOpeners : (squares : Nat) → List Token → List Char
  | _, [] => []
  | squares, token :: tokens =>
    (if squares = 0 then opener token else []) ++ tokenOpeners (squaresAfter squares token) tokens

/-! ### From characters to tokens -/

section Reading

variable {t : Text} {c : Char} {squares : Nat}

theorem openersFrom_name (squares : Nat) (t : Text) :
    openersFrom .name squares t = openersFrom .plain squares (t.dropWhile isNameChar) := by
  induction t with
  | nil => rfl
  | cons c t ih =>
    by_cases hc : isNameChar c = true
    · rw [List.dropWhile_cons_of_pos hc, ← ih]
      simp [openersFrom, hc]
    · rw [List.dropWhile_cons_of_neg hc]
      simp [openersFrom, hc]

theorem openersFrom_tag (squares : Nat) (t : Text) : openersFrom .tag squares t =
    ((cutAt? (· = '>') t).map fun (_, rest) => openersFrom .plain squares rest).getD [] := by
  induction t with
  | nil => rfl
  | cons c t ih =>
    by_cases hc : c = '>'
    · simp [openersFrom, cutAt?, hc]
    · have hstep : openersFrom .tag squares (c :: t) = openersFrom .tag squares t := by
        simp [openersFrom, hc]
      rw [hstep, ih, cutAt?, if_neg (by simpa using hc), Option.map_map]
      rfl

theorem tokensFrom_append (s t : Text) : tokensFrom s.length (s ++ t) = tokensFrom 0 t := by
  induction s with
  | nil => rfl
  | cons c s ih => exact ih

theorem openersFrom_plain (hc : c ∉ signs) (squares : Nat) (t : Text) :
    openersFrom .plain squares (c :: t) = openersFrom .plain squares t := by
  have hne : ∀ s ∈ signs, c ≠ s := fun s hs heq => hc (heq ▸ hs)
  have hopener : isOpener c = false := by
    simp [isOpener, hne '*' (by decide), hne '#' (by decide), hne '_' (by decide), hne '(' (by decide)]
  rw [openersFrom]
  · simp [hopener]
  all_goals exact hne _ (by decide)

theorem openersFrom_eq (squares : Nat) (t : Text) :
    openersFrom .plain squares t = tokenOpeners squares (tokensFrom 0 t) := by
  induction hn : t.length using Nat.strongRecOn generalizing squares t with
  | ind n ih =>
  cases t with
  | nil => rfl
  | cons c t =>
  have hrest : ∀ squares u, u.length ≤ t.length →
      openersFrom .plain squares u = tokenOpeners squares (tokensFrom 0 u) := by
    intro squares u hu
    refine ih u.length ?_ squares u rfl
    rw [← hn, List.length_cons]
    exact Nat.lt_succ_of_le hu
  have hnext := fun squares => hrest squares t le_rfl
  by_cases hsigns : c ∈ signs
  · simp only [signs, List.mem_cons, List.not_mem_nil, or_false] at hsigns
    rcases hsigns with rfl | rfl | rfl | rfl | rfl | rfl | rfl | rfl | rfl | rfl | rfl
    · simp [openersFrom, tokensFrom, tokenOpeners, opener, squaresAfter, hnext, isOpener]
    · simp [openersFrom, tokensFrom, tokenOpeners, opener, squaresAfter, hnext, isOpener]
    · simp [openersFrom, tokensFrom, tokenOpeners, opener, squaresAfter, hnext, isOpener]
    · simp [openersFrom, tokensFrom, tokenOpeners, opener, squaresAfter, hnext]
    · simp [openersFrom, tokensFrom, tokenOpeners, opener, squaresAfter, hnext]
    · simp [openersFrom, tokensFrom, tokenOpeners, opener, squaresAfter, hnext, isOpener, Wildcard.sign,
        Feature.sign]
    · simp [openersFrom, tokensFrom, tokenOpeners, opener, squaresAfter, hnext, isOpener, Wildcard.sign,
        Feature.sign]
    · simp [openersFrom, tokensFrom, tokenOpeners, opener, squaresAfter, hnext, isOpener, Wildcard.sign,
        Feature.sign]
    · cases t with
      | nil => simp [openersFrom, tokensFrom, tokenOpeners, opener]
      | cons e t =>
        have hstep : openersFrom .plain squares ('\\' :: e :: t) = openersFrom .plain squares t := by
          simp [openersFrom]
        rw [hstep, hrest squares t (Nat.le_succ _)]
        simp [tokensFrom, tokenOpeners, opener, squaresAfter]
    · have hstep : openersFrom .plain squares ('@' :: t) =
          openersFrom .plain squares (t.dropWhile isNameChar) := by
        rw [← openersFrom_name]
        simp [openersFrom]
      have hdrop := tokensFrom_append (t.takeWhile isNameChar) (t.dropWhile isNameChar)
      rw [List.takeWhile_append_dropWhile] at hdrop
      rw [hstep, hrest squares _ (List.dropWhile_suffix _).length_le, ← hdrop]
      cases hname : t.takeWhile isNameChar with
      | nil => simp [tokensFrom, hname, tokenOpeners, opener, squaresAfter]
      | cons d name => simp [tokensFrom, hname, tokenOpeners, opener, squaresAfter]
    · have hstep : openersFrom .plain squares ('<' :: t) = openersFrom .tag squares t := by
        simp [openersFrom]
      rw [hstep, openersFrom_tag]
      cases hcut : cutAt? (· = '>') t with
      | none => simp [tokensFrom, hcut, tokenOpeners, opener]
      | some found =>
        obtain ⟨body, rest⟩ := found
        obtain ⟨d, -, rfl⟩ := eq_of_cutAt? hcut
        have hskip := tokensFrom_append (body ++ [d]) rest
        rw [List.length_append, List.length_singleton, List.append_assoc, List.singleton_append] at hskip
        have hlength : rest.length ≤ (body ++ d :: rest).length := by
          rw [List.length_append, List.length_cons]
          omega
        have hlater := hrest squares rest hlength
        simp [tokensFrom, hcut, tokenOpeners, opener, squaresAfter, hskip, hlater]
  · rw [openersFrom_plain hsigns, tokensFrom_cons hsigns, hnext]
    split <;> simp [tokenOpeners, opener, squaresAfter]

end Reading

end Pattern

/-! ### From tokens to items -/

mutual

def Item.openers : Item → List Char
  | .wild w => [w.sign]
  | .choice as => '(' :: Item.openersOfEach as
  | .literal _ | .blank | .array _ | .tag _ | .optional _ => []

def Item.openersOf : List Item → List Char
  | [] => []
  | i :: is => i.openers ++ Item.openersOf is

def Item.openersOfEach : List (List Item) → List Char
  | [] => []
  | is :: rest => Item.openersOf is ++ Item.openersOfEach rest

end

namespace Item

theorem openersOf_append (is js : List Item) : openersOf (is ++ js) = openersOf is ++ openersOf js := by
  induction is with
  | nil => rfl
  | cons i is ih => rw [List.cons_append, openersOf, openersOf, ih, List.append_assoc]

theorem openersOf_concat (is : List Item) (i : Item) :
    openersOf (is ++ [i]) = openersOf is ++ i.openers := by
  rw [openersOf_append, openersOf, openersOf, List.append_nil]

theorem openersOfEach_append (as bs : List (List Item)) :
    openersOfEach (as ++ bs) = openersOfEach as ++ openersOfEach bs := by
  induction as with
  | nil => rfl
  | cons is as ih => rw [List.cons_append, openersOfEach, openersOfEach, ih, List.append_assoc]

theorem openersOf_addBlank (is : List Item) : openersOf (Pattern.addBlank is) = openersOf is := by
  rw [Pattern.addBlank]
  split
  · rfl
  · rw [openersOf_concat, openers, List.append_nil]

end Item

namespace Pattern

open Dialogue.Item

/-- What an open bracket remembers of itself and of the alternatives that are finished. -/
def Open.openers (o : Open) : List Char :=
  openersOf o.before ++ match o.bracket with
    | .round => '(' :: openersOfEach o.alternatives
    | .square => []

def squares (outer : List Open) : Nat := outer.countP (·.bracket = .square)

/-- What the brackets that are open remember so far, from the outermost inwards. -/
def openedBy : List Open → List Char
  | [] => []
  | o :: outer => openedBy outer ++ if squares outer = 0 then o.openers else []

theorem squares_cons (o : Open) (outer : List Open) :
    squares (o :: outer) = squares outer + if o.bracket = .square then 1 else 0 := by
  simp [squares, List.countP_cons]

theorem openersOf_close (o : Open) (is : List Item) : openersOf (o.close is) =
    o.openers ++ match o.bracket with
      | .round => openersOf is
      | .square => [] := by
  rw [Open.close, openersOf_concat, Open.openers]
  cases o.bracket with
  | round => simp [Item.openers, openersOfEach_append, openersOfEach]
  | square => simp [Item.openers]

/-- A finished alternative is remembered with the bracket, unless that is a square one. -/
theorem openedBy_bar (o : Open) (outer : List Open) (is : List Item) :
    openedBy ({ o with alternatives := o.alternatives ++ [is] } :: outer) =
      openedBy (o :: outer) ++ if squares (o :: outer) = 0 then openersOf is else [] := by
  rw [openedBy, openedBy, squares_cons, Open.openers, Open.openers]
  cases o.bracket with
  | round =>
    by_cases hsquares : squares outer = 0
    · simp [hsquares, openersOfEach_append, openersOfEach]
    · simp [hsquares]
  | square => simp

/-- What is remembered of a part that has been read is told by the part itself. -/
theorem openersOf_assemble {outer : List Open} {is result : List Item} {tokens : List Token}
    (h : assemble outer is tokens = .ok result) :
    openersOf result = openedBy outer ++ (if squares outer = 0 then openersOf is else []) ++
      tokenOpeners (squares outer) tokens := by
  induction tokens generalizing outer is with
  | nil =>
    cases outer with
    | nil =>
      cases h
      simp [openedBy, squares, tokenOpeners]
    | cons o outer => cases h
  | cons token tokens ih =>
    rw [tokenOpeners]
    cases token with
    | literal c =>
      rw [assemble] at h
      simp [ih h, openersOf_concat, Item.openers, opener, squaresAfter]
    | blank =>
      rw [assemble] at h
      simp [ih h, openersOf_addBlank, opener, squaresAfter]
    | wild w =>
      rw [assemble] at h
      by_cases hsquares : squares outer = 0
      · simp [ih h, openersOf_concat, Item.openers, opener, squaresAfter, hsquares]
      · simp [ih h, squaresAfter, hsquares]
    | array name =>
      rw [assemble] at h
      simp [ih h, openersOf_concat, Item.openers, opener, squaresAfter]
    | tag body =>
      rw [assemble] at h
      simp [ih h, openersOf_concat, Item.openers, opener, squaresAfter]
    | bar =>
      cases outer with
      | nil =>
        rw [assemble] at h
        simp [ih h, openersOf_concat, Item.openers, opener, squaresAfter]
      | cons o outer =>
        rw [assemble] at h
        rw [ih h, openedBy_bar]
        simp [opener, squaresAfter, squares_cons, openersOf]
    | opening b =>
      rw [assemble] at h
      rw [ih h, openedBy, squares_cons]
      cases b with
      | round =>
        by_cases hsquares : squares outer = 0
        · simp [Open.openers, opener, squaresAfter, openersOf, openersOfEach, hsquares]
        · simp [squaresAfter, hsquares]
      | square => simp [Open.openers, opener, squaresAfter]
    | closing b =>
      cases outer with
      | nil => cases h
      | cons o outer =>
        rw [assemble] at h
        split at h
        · rename_i hb
          subst hb
          rw [ih h, openersOf_close, openedBy, squares_cons]
          cases hbracket : o.bracket with
          | round =>
            by_cases hsquares : squares outer = 0
            · simp [opener, squaresAfter, hsquares]
            · simp [squaresAfter, hsquares]
          | square => simp [squaresAfter]
        · cases h
    | openTag => cases outer <;> cases h

theorem openersOf_items {t : Text} {is : List Item} (h : items t = .ok is) :
    openersOf is = openers t := by
  rw [openersOf_assemble h, openers, openersFrom_eq]
  rfl

end Pattern

end Dialogue
