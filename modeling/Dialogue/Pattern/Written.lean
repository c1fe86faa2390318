import Dialogue.Pattern.Expression
import Dialogue.Text.Outline

/-! How the meaning of a pattern is written for an engine of regular expressions. -/
namespace Dialogue

open Text

/-- Characters that stand for themselves only after a backslash. -/
def isSign (c : Char) : Bool := "\\.+*?()|[]\x7b\x7d^$#&-~".toList.contains c

def escape (t : Text) : Text := t.flatMap fun c => if isSign c then ['\\', c] else [c]

def Wildcard.outline : Wildcard → Outline
  | .anything => .level (".+?" : String)
  | .number => .level ("\\d+?" : String)
  | .letters => .level (.level ("[^" ++ .level ("\\s\\d" : String) ++ "]") ++ "+?")

namespace Expression

def outline (p : Outline.Context) : Expression → Outline
  | .literal t =>
    match t with
    | [] | [_] => .plain (escape t)
    | t => .deepen p.rowLevels (.plain (escape t))
  | .wild w => w.outline
  | .gap => .level (.level ("(?:" ++ .level ("\\s|\\b" : String) ++ ")") ++ "+")
  | .seq a b => .deepen p.rowLevels (a.outline .inRow ++ b.outline .inRow)
  | .either a b =>
    .deepen p.alternativeLevels
      (a.outline .inAlternatives ++ "|" ++ b.outline .inAlternatives)
  | .group remember a =>
    .level ((if remember then "(" else "(?:") ++ a.outline .inside ++ ")")

def wholeOutline (e : Expression) : Outline := .level ("^" ++ e.outline .inRow ++ "$")

end Expression

end Dialogue
