import Dialogue.Engine
import Dialogue.Engine.Regex
import Dialogue.Pattern.Written
import Dialogue.Text.Bytes

/-! An engine to run bots with. It reads the punctuation that owners of bots commonly choose, and it
only estimates how large an expression becomes, so near the limit, and for punctuation with signs that
it does not read, other engines differ from it. -/
namespace Dialogue

open Text

namespace Regex

def stripper (r : Regex) : Stripper where
  strip := r.strip
  sublist t := r.stripFrom_sublist 0 (Place.start t) t

theorem ofText_usual : ofText? usualPunctuation =
    some (one (.bracket false (.unionOf (".,!?;:".toList.map .single)))) := by
  decide +kernel

theorem strip_usual {s : Stripper} (h : (ofText? usualPunctuation).map stripper = some s) (t : Text) :
    s.strip t = Stripper.usual.strip t := by
  rw [ofText_usual] at h
  obtain rfl := Option.some.inj h
  show strip _ t = t.filter _
  rw [strip_one]
  refine List.filter_congr fun c _ => ?_
  rw [CharClass.admits, CharClass.admits_unionOf, isUsualPunctuation, Bool.bne_false]

end Regex

/-- How many bytes the steps that match an expression may take. -/
def sizeLimit : Nat := 10485760

/-- What is said of an expression with a part that lies too deep. -/
def Outline.complaint (o : Outline) : Text :=
  let (earlier, part) := (o.deeper? depthLimit).getD ([], [])
  "regex parse error:\n" ++ marked o.written earlier part ++
    "error: exceed the maximum number of nested parentheses/brackets (" ++
    Numeral.ofNat depthLimit ++ ")"

namespace Expression

def stepSize : Nat := 32

/-- About as many bytes as the steps take that match an expression. A class of characters has steps
for the encoded form of all its characters, backwards, so it takes the more the more ranges it has. -/
def size : Expression → Nat
  | .literal t => stepSize * byteSize t
  | .wild .anything => 1040
  | .wild .number => 5168
  | .wild .letters => 13650
  | .gap => 824
  | .seq a b => a.size + b.size
  | .either a b => a.size + b.size + 36
  | .group _ a => a.size

def limit? (e : Expression) : Option Limit :=
  if e.wholeOutline.depth > Outline.depthLimit then some (.depth e.wholeOutline.complaint)
  else if e.size > sizeLimit then
    some (.size ("Compiled regex exceeds size limit of " ++ Numeral.ofNat sizeLimit ++ " bytes."))
  else none

end Expression

def Engine.standard : Engine where
  stripper? t := (Regex.ofText? t).map Regex.stripper
  usual _ := Regex.strip_usual
  refusal? := Expression.limit?
  takesPhrase _ := true

theorem Engine.standard_refuses {e : Expression} (h : sizeLimit < e.size) :
    ∃ l, standard.refusal? e = some l := by
  show ∃ l, e.limit? = some l
  rw [Expression.limit?, if_pos h]
  split <;> exact ⟨_, rfl⟩

end Dialogue
