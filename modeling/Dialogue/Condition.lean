import Dialogue.Session.History
import Dialogue.Text.Space
import Dialogue.Text.Numeral

/-! Conditions of a rule: two operands, how they are compared, and what is answered if the
comparison holds. -/
namespace Dialogue

open Text

inductive Comparison where
  | eq
  | ne
  | lt
  | le
  | gt
  | ge
  deriving DecidableEq, Repr

namespace Comparison

def spellings : List (Text × Comparison) :=
  [("==", .eq), ("eq", .eq), ("!=", .ne), ("ne", .ne), ("<>", .ne), ("<=", .le), (">=", .ge),
    ("<", .lt), (">", .gt)]

def ofText? (t : Text) : Option Comparison := spellings.lookup t

def integers? (left right : Text) : Option (Int × Int) :=
  (Numeral.integer? (trim left)).bind fun l =>
    (Numeral.integer? (trim right)).map fun r => (l, r)

def equal (left right : Text) : Bool :=
  left = right || (integers? left right).any fun (l, r) => l == r

/-- Equality is that of texts or of integers; the order is that of integers, and nothing else is
ordered. -/
def holds (c : Comparison) (left right : Text) : Bool :=
  let numbers := integers? left right
  match c with
  | .eq => equal left right
  | .ne => !equal left right
  | .lt => numbers.any fun (l, r) => l < r
  | .le => numbers.any fun (l, r) => l ≤ r
  | .gt => numbers.any fun (l, r) => l > r
  | .ge => numbers.any fun (l, r) => l ≥ r

end Comparison

structure Condition where
  left : Text
  comparison : Comparison
  right : Text
  response : Text
  deriving DecidableEq, Repr

namespace Condition

def readOperator (t : Text) : Option (Comparison × Text) :=
  if t.head?.any isSpace then
    Comparison.spellings.findSome? fun (spelling, comparison) => do
      let after ← spelling.isPrefixOf? (trimStart t)
      if after.head?.any isSpace && !(trimStart after).contains '\n' then
        some (comparison, trim after)
      else none
  else none

/-- The shortest first operand on one line that an operator follows. -/
def split? : Text → Option (Text × Comparison × Text)
  | [] => none
  | c :: t =>
    if c = '\n' then none
    else match readOperator t with
      | some found => some ([c], found)
      | none => (split? t).map fun (left, found) => (c :: left, found)

/-- The first arrow separates the comparison from the response. -/
def ofText? (t : Text) : Option Condition := do
  let (test, response) ← cut? "=>" t
  let (left, comparison, right) ← split? (trim test)
  some ⟨trim left, comparison, right, trim response⟩

/-- An operand without any text counts as undefined. -/
def operand (t : Text) : Text := if trim t = [] then undefinedText else t

end Condition

end Dialogue
