import Dialogue.Text.Basic

/-! Texts as they come from outside, encoded in bytes. -/
namespace Dialogue.Text

def ofBytes? (bytes : ByteArray) : Option Text := (String.fromUTF8? bytes).map String.toList

def byteSize (t : Text) : Nat := (String.ofList t).utf8ByteSize

def addByte (b : UInt8) : List (List UInt8) → List (List UInt8)
  | [] => [[b]]
  | line :: lines => (b :: line) :: lines

/-- Lines of bytes, each with the line break that ends it; the last one may have none. -/
def byteLines : List UInt8 → List (List UInt8)
  | [] => []
  | b :: rest => if b = 10 then [b] :: byteLines rest else addByte b (byteLines rest)

/-- Lines of a text that is read as it comes; a line whose bytes are no text is none. -/
def linesOfBytes (bytes : ByteArray) : List (Option Text) :=
  (byteLines bytes.toList).map fun line => ofBytes? ⟨line.toArray⟩

end Dialogue.Text
