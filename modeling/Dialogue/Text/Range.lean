import Dialogue.Text.Basic

/-! Classes of characters as ascending lists of closed ranges of code points. Letters, marks,
digits and connecting punctuation are those of version 16 of the Unicode character database;
numbers and everything about case are those of version 17. -/
namespace Dialogue.Text

/-- Ranges are ascending and apart, so the search stops at the first one that starts too late. -/
abbrev Ranges := List (Nat × Nat)

def Ranges.contains : Ranges → Nat → Bool
  | [], _ => false
  | (first, last) :: ranges, n =>
    if n < first then false else if n ≤ last then true else Ranges.contains ranges n

def Ranges.Ascending : Ranges → Prop
  | [] => True
  | [(first, last)] => first ≤ last
  | (first, last) :: (next, last₂) :: ranges =>
    first ≤ last ∧ last < next ∧ Ranges.Ascending ((next, last₂) :: ranges)

end Dialogue.Text
