import Dialogue.Text.Space
import Dialogue.Text.Digit
import Dialogue.Text.Numeral

/-! Weight annotations: `weight=` and digits in curly brackets, anywhere in a text. -/
namespace Dialogue.Weight

open Text

def read : Reader Text := fun t => do
  let rest ← List.isPrefixOf? ("\x7bweight=" : Text) t
  match rest.takeWhile isDigit, rest.dropWhile isDigit with
  | [], _ => none
  | digits, '}' :: after => some (digits, after)
  | _, _ => none

def first? (t : Text) : Option Text := (find? read t).map fun (_, digits, _) => digits

def readWithSpace : Reader Text := fun t => do
  let (digits, rest) ← read (trimStart t)
  some (digits, trimStart rest)

def remove (t : Text) : Text := edit (fun t => (read t).map fun (_, rest) => ([], rest)) t

/-- Takes the annotations away with the white space around them, a blank for each. -/
def strip (t : Text) : Text :=
  trim (edit (fun t => (readWithSpace t).map fun (_, rest) => ([' '], rest)) t)

/-- How much a trigger counts when triggers are ordered; a number too large to read counts
nothing. -/
def ofTrigger (t : Text) : Nat := ((first? t).bind Numeral.weight?).getD 0

/-- How many chances a reply has; at least one. -/
def ofReply (t : Text) : Nat := max 1 (((first? t).bind Numeral.weight?).getD 1)

end Dialogue.Weight
