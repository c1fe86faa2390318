import Dialogue.Text.Digit
import Dialogue.Text.Letter
import Dialogue.Text.Mark
import Dialogue.Text.Number

/-! What words and names are made of. -/
namespace Dialogue.Text

/-- Connecting punctuation such as the underscore: the general category Pc. -/
def connectorRanges : Ranges := [
  (0x5F, 0x5F), (0x203F, 0x2040), (0x2054, 0x2054), (0xFE33, 0xFE34), (0xFE4D, 0xFE4F),
  (0xFF3F, 0xFF3F)]

/-- Letters, marks, decimal digits, connecting punctuation and the two joining signs. -/
def isWordChar (c : Char) : Bool :=
  if c.toNat < 0x80 then c.isAlphanum || c == '_'
  else isLetter c || isMark c || isDigit c || connectorRanges.contains c.toNat ||
    c.toNat == 0x200C || c.toNat == 0x200D

def isAlphanumeric (c : Char) : Bool :=
  if c.toNat < 0x80 then c.isAlphanum else isLetter c || isNewLetter c || isNumber c

/-- A word ends or begins between the two neighbours; a missing neighbour is no word character. -/
def isBoundary (previous next : Option Char) : Bool :=
  previous.any isWordChar != next.any isWordChar

end Dialogue.Text
