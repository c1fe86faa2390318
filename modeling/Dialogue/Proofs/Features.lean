import Dialogue.Pattern.Matcher
import Mathlib.Data.Bool.AllAny

/-! What the meaning of a pattern is made of. It has a wildcard or an optional part just if the sign
of it is a token of the pattern; surroundings only add texts. -/
namespace Dialogue

/-- What can be told of a pattern without reading it in full. -/
inductive Feature where
  | wild (w : Wildcard)
  | optional
  deriving DecidableEq, Repr

def Feature.sign : Feature → Char
  | .wild .anything => '*'
  | .wild .number => '#'
  | .wild .letters => '_'
  | .optional => '['

/-- Only optional parts leave a gap. -/
def Expression.has (f : Feature) : Expression → Bool
  | .literal _ => false
  | .wild w => f == .wild w
  | .gap => f == .optional
  | .seq a b | .either a b => a.has f || b.has f
  | .group _ a => a.has f

def Token.has (f : Feature) : Token → Bool
  | .wild w => f == .wild w
  | .opening .square => f == .optional
  | _ => false

mutual

def Item.has (f : Feature) : Item → Bool
  | .wild w => f == .wild w
  | .choice as => Item.eachHas f as
  | .optional as => f == .optional || Item.eachHas f as
  | .literal _ | .blank | .array _ | .tag _ => false

def Item.someHas (f : Feature) : List Item → Bool
  | [] => false
  | i :: is => i.has f || Item.someHas f is

def Item.eachHas (f : Feature) : List (List Item) → Bool
  | [] => false
  | is :: rest => Item.someHas f is || Item.eachHas f rest

end

variable {f : Feature}

namespace Item

theorem someHas_append (is js : List Item) :
    someHas f (is ++ js) = (someHas f is || someHas f js) := by
  induction is with
  | nil => rfl
  | cons i is ih =>
    rw [List.cons_append, someHas, someHas, ih, Bool.or_assoc]

theorem eachHas_append (as bs : List (List Item)) :
    eachHas f (as ++ bs) = (eachHas f as || eachHas f bs) := by
  induction as with
  | nil => rfl
  | cons a as ih =>
    rw [List.cons_append, eachHas, eachHas, ih, Bool.or_assoc]

end Item

namespace Pattern

/-! ### From tokens to items -/

def Open.has (f : Feature) (o : Open) : Bool :=
  Item.someHas f o.before || Item.eachHas f o.alternatives || (Token.opening o.bracket).has f

theorem someHas_close (o : Open) (items : List Item) :
    Item.someHas f (o.close items) = (o.has f || Item.someHas f items) := by
  obtain ⟨before, bracket, as⟩ := o
  cases bracket <;>
    simp [Open.close, Open.has, Token.has, Item.someHas_append, Item.eachHas_append, Item.someHas,
      Item.eachHas, Item.has] <;> grind

theorem someHas_addBlank (items : List Item) :
    Item.someHas f (addBlank items) = Item.someHas f items := by
  rw [addBlank]
  split
  · rfl
  · simp [Item.someHas_append, Item.someHas, Item.has]

/-- What is read has the features of what was read so far and of the tokens. -/
theorem someHas_assemble {outer : List Open} {items is : List Item} {tokens : List Token}
    (h : assemble outer items tokens = .ok is) : Item.someHas f is =
      (outer.any (Open.has f) || Item.someHas f items || tokens.any (Token.has f)) := by
  induction tokens generalizing outer items with
  | nil =>
    cases outer with
    | nil =>
      cases h
      simp
    | cons o outer => cases h
  | cons token tokens ih =>
    cases token with
    | opening b =>
      have h : assemble ({ before := items, bracket := b } :: outer) [] tokens = .ok is := by
        cases outer <;> exact h
      rw [ih h]
      simp [Open.has, Item.someHas, Item.eachHas, Bool.or_assoc, Bool.or_comm, Bool.or_left_comm]
    | openTag => cases outer <;> cases h
    | bar =>
      cases outer with
      | nil =>
        rw [ih h]
        simp [Item.someHas_append, Item.someHas, Item.has, Token.has]
      | cons o outer =>
        rw [ih h]
        simp [Open.has, Item.eachHas_append, Item.someHas, Item.eachHas, Token.has, Bool.or_assoc,
          Bool.or_comm, Bool.or_left_comm]
    | closing b =>
      cases outer with
      | nil => cases h
      | cons o outer =>
        rw [assemble] at h
        split at h
        · rw [ih h, someHas_close]
          simp [Token.has, Bool.or_assoc, Bool.or_left_comm]
        · cases h
    | blank =>
      have h : assemble outer (addBlank items) tokens = .ok is := by
        cases outer <;> exact h
      rw [ih h, someHas_addBlank]
      simp [Token.has]
    -- Each of these is an item of its own.
    | literal c | wild w | array name | tag body =>
      rw [@ih outer _ (by cases outer <;> exact h), Item.someHas_append]
      simp [Item.someHas, Item.has, Token.has, Bool.or_assoc]

theorem someHas_items {body : Text} {is : List Item} (h : items body = .ok is) :
    Item.someHas f is = (tokensFrom 0 body).any (Token.has f) := by
  rw [someHas_assemble h]
  rfl

/-! ### From items to expressions -/

def Piece.has (f : Feature) : Piece → Bool
  | .char _ => false
  | .part e => e.has f

/-- Only the parts of a sequence are more than text. -/
def parts : List Piece → List Expression
  | [] => []
  | .char _ :: ps => parts ps
  | .part e :: ps => e :: parts ps

theorem parts_append (ps qs : List Piece) : parts (ps ++ qs) = parts ps ++ parts qs := by
  induction ps with
  | nil => rfl
  | cons p ps ih =>
    cases p with
    | char c => exact ih
    | part e => exact congrArg (e :: ·) ih

theorem parts_reverse (ps : List Piece) : parts ps.reverse = (parts ps).reverse := by
  induction ps with
  | nil => rfl
  | cons p ps ih =>
    rw [List.reverse_cons, parts_append, ih]
    cases p with
    | char c => exact List.append_nil _
    | part e => exact List.reverse_cons.symm

theorem parts_dropWhile {p : Piece → Bool} (hp : ∀ e, p (.part e) = false) (ps : List Piece) :
    parts (ps.dropWhile p) = parts ps := by
  induction ps with
  | nil => rfl
  | cons piece ps ih =>
    cases piece with
    | char c =>
      rw [List.dropWhile_cons]
      split
      · exact ih
      · rfl
    | part e => rw [List.dropWhile_cons_of_neg (by simp [hp])]

theorem parts_dropBlanks (ps : List Piece) : parts (dropBlanks ps) = parts ps := by
  have hblank : ∀ e, Piece.isBlank (.part e) = false := fun _ => rfl
  rw [dropBlanks, parts_reverse, parts_dropWhile hblank, parts_reverse, List.reverse_reverse]

theorem parts_trimPieces (ps : List Piece) : parts (trimPieces ps) = parts ps := by
  have hspace : ∀ e, Piece.isSpace (.part e) = false := fun _ => rfl
  rw [trimPieces, parts_reverse, parts_dropWhile hspace, parts_reverse, List.reverse_reverse,
    parts_dropWhile hspace]

theorem parts_addSeparator (ps : List Piece) : parts (addSeparator ps) = parts ps := by
  rw [addSeparator]
  split
  · rfl
  · split
    · rfl
    · exact (parts_append ps [.char ' ']).trans (List.append_nil _)

theorem any_parts (ps : List Piece) : (parts ps).any (Expression.has f) = ps.any (Piece.has f) := by
  induction ps with
  | nil => rfl
  | cons p ps ih =>
    cases p with
    | char c => exact ih
    | part e => exact congrArg (e.has f || ·) ih

theorem any_dropBlanks (ps : List Piece) :
    (dropBlanks ps).any (Piece.has f) = ps.any (Piece.has f) := by
  rw [← any_parts, parts_dropBlanks, any_parts]

theorem any_trimPieces (ps : List Piece) :
    (trimPieces ps).any (Piece.has f) = ps.any (Piece.has f) := by
  rw [← any_parts, parts_trimPieces, any_parts]

theorem any_addSeparator (ps : List Piece) :
    (addSeparator ps).any (Piece.has f) = ps.any (Piece.has f) := by
  rw [← any_parts, parts_addSeparator, any_parts]

theorem has_join (ps : List Piece) : (join ps).has f = ps.any (Piece.has f) := by
  fun_induction join ps with
  | case1 => rfl
  | case2 e => simp [Piece.has]
  | case3 e ps hps ih => simp [Expression.has, Piece.has, ih]
  | case4 c ps t hjoin ih =>
    rw [hjoin] at ih
    simpa [Expression.has, Piece.has] using ih
  | case5 c ps t e hjoin ih =>
    rw [hjoin] at ih
    simpa [Expression.has, Piece.has] using ih
  | case6 c ps _ _ ih => simpa [Expression.has, Piece.has] using ih

theorem has_eitherOf (es : List Expression) :
    (Expression.eitherOf es).has f = es.any (Expression.has f) := by
  fun_induction Expression.eitherOf es with
  | case1 => rfl
  | case2 e => simp
  | case3 e es _ ih => simp [Expression.has, ih]

/-- An alternative that is dropped is empty. -/
theorem any_alternatives (as : List (List Piece)) :
    (alternatives as).any (Expression.has f) = as.any fun ps => ps.any (Piece.has f) := by
  induction as with
  | nil => rfl
  | cons ps as ih =>
    have htrim := any_trimPieces (f := f) ps
    rw [alternatives, List.map_cons, List.filter_cons, List.any_cons, ← ih]
    cases hps : trimPieces ps with
    | nil =>
      rw [hps] at htrim
      simp [alternatives, ← htrim]
    | cons piece rest =>
      rw [hps] at htrim
      simp [alternatives, has_join, ← htrim]

theorem has_optionalOf (es : List Expression) :
    (optionalOf es).has f = (f == .optional || es.any (Expression.has f)) := by
  rw [optionalOf, Expression.has, has_eitherOf]
  induction es with
  | nil => simp [Expression.has]
  | cons e es ih =>
    rw [List.map_cons, List.cons_append, List.any_cons, ih]
    simp [Expression.has]
    grind

theorem any_arrayPieces (s : Surroundings) (name : Text) :
    (arrayPieces s name).any (Piece.has f) = false := by
  rw [arrayPieces]
  split
  · rename_i members _
    have hmembers : (members.map fun m => Expression.literal (Text.lower m)).any
        (Expression.has f) = false := by
      simp [Expression.has]
    simp [Piece.has, Expression.has, has_eitherOf, hmembers]
  · rfl

mutual

theorem any_addTo (s : Surroundings) (remember : Bool) (ps : List Piece) (i : Item) :
    (Item.addTo s remember ps i).any (Piece.has f) = (ps.any (Piece.has f) || i.has f) := by
  cases i with
  | literal c => simp [Item.addTo, Item.has, Piece.has]
  | blank => simp [Item.addTo, Item.has, any_addSeparator]
  | wild w => simp [Item.addTo, Item.has, Piece.has, Expression.has]
  | array name => simp [Item.addTo, Item.has, any_arrayPieces]
  | tag body =>
    rw [Item.addTo, List.any_append]
    simp [Item.has, Piece.has]
  | choice as =>
    have heach := any_piecesOfEach s remember as
    simp [Item.addTo, Item.has, Piece.has, Expression.has, has_eitherOf, any_alternatives, heach]
  | optional as =>
    have heach := any_piecesOfEach s false as
    simp [Item.addTo, Item.has, Piece.has, has_optionalOf, any_dropBlanks, any_alternatives, heach]

theorem any_piecesFrom (s : Surroundings) (remember : Bool) (ps : List Piece) (is : List Item) :
    (piecesFrom s remember ps is).any (Piece.has f) =
      (ps.any (Piece.has f) || Item.someHas f is) := by
  cases is with
  | nil => simp [piecesFrom, Item.someHas]
  | cons i is =>
    rw [piecesFrom, any_piecesFrom s remember _ is, any_addTo s remember ps i, Item.someHas,
      Bool.or_assoc]

theorem any_piecesOfEach (s : Surroundings) (remember : Bool) (as : List (List Item)) :
    ((piecesOfEach s remember as).any fun ps => ps.any (Piece.has f)) = Item.eachHas f as := by
  cases as with
  | nil => rfl
  | cons is as =>
    rw [piecesOfEach, List.any_cons, any_piecesFrom s remember [] is, any_piecesOfEach s remember as,
      Item.eachHas, List.any_nil, Bool.false_or]

end

/-- Whatever surrounds a pattern, its expression has the features that its tokens have. -/
theorem has_expression {body : Text} {is : List Item} (h : items body = .ok is)
    (s : Surroundings) : (expression s is).has f = (tokensFrom 0 body).any (Token.has f) := by
  rw [expression, has_join, any_piecesFrom, someHas_items h]
  rfl

end Pattern
end Dialogue
