import Dialogue.Text.Range

/-! White space: the property White_Space. Words are what lies between runs of it. -/
namespace Dialogue.Text

def spaceRanges : Ranges := [
  (0x9, 0xD), (0x20, 0x20), (0x85, 0x85), (0xA0, 0xA0), (0x1680, 0x1680), (0x2000, 0x200A),
  (0x2028, 0x2029), (0x202F, 0x202F), (0x205F, 0x205F), (0x3000, 0x3000)]

def isSpace (c : Char) : Bool := spaceRanges.contains c.toNat

def trimStart (t : Text) : Text := t.dropWhile isSpace

def trimEnd (t : Text) : Text := (t.reverse.dropWhile isSpace).reverse

def trim (t : Text) : Text := trimEnd (trimStart t)

def words (t : Text) : List Text := (pieces isSpace t).filter (· ≠ [])

/-- Words separated by single blanks, with none at either end. -/
def collapse (t : Text) : Text := [' '].intercalate (words t)

end Dialogue.Text
