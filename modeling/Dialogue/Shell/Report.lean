import Dialogue.Reply.Answer

/-! The report on how a reply came about. -/
namespace Dialogue.Shell

structure Palette where
  enabled : Bool

namespace Palette

def code (number : Text) : Text := "\x1b[" ++ number ++ "m"

def wrap (p : Palette) (number t : Text) : Text :=
  if p.enabled then code number ++ t ++ code "0" else t

def bold (p : Palette) : Text → Text := p.wrap "1"

def dim (p : Palette) : Text → Text := p.wrap "2"

def green (p : Palette) : Text → Text := p.wrap "32"

def yellow (p : Palette) : Text → Text := p.wrap "33"

def blue (p : Palette) : Text → Text := p.wrap "34"

def magenta (p : Palette) : Text → Text := p.wrap "35"

def cyan (p : Palette) : Text → Text := p.wrap "36"

def gray (p : Palette) : Text → Text := p.wrap "90"

end Palette

def quoted (t : Text) : Text := "\"" ++ t ++ "\""

def indent (depth : Nat) : Text := List.replicate (2 * (depth + 1)) ' '

def stepLines (p : Palette) (s : Step) : List Text :=
  let label := if s.begin then "begin@" ++ s.topic else s.topic
  let outcome := match s.matched with
    | some pattern =>
      if s.viaPrevious then p.magenta ("✓ " ++ pattern ++ " (via %Previous)")
      else p.green ("✓ " ++ pattern)
    | none => p.dim "✗ no match"
  [indent s.depth ++ p.gray ("[" ++ Numeral.ofNat s.depth ++ "]") ++ " " ++ p.blue label ++ " " ++
      p.dim (quoted s.message),
    indent s.depth ++ "    " ++ outcome ++ " " ++ p.dim ("│ tried " ++ Numeral.ofNat s.tried)]

/-- Lines of the report; `time` is how the time it took is written. -/
def reportLines (p : Palette) (time line : Text) (e : Exchange) : List Text :=
  [[], p.bold (p.cyan ("⚙  Message: " ++ quoted line)),
    "  " ++ p.dim "normalized:" ++ " " ++ p.yellow e.message,
    [], p.gray "━━━ Steps ━━━"] ++
  (if e.steps = [] then [p.dim "  No resolution steps ran"] else e.steps.flatMap (stepLines p)) ++
  [[], p.gray "━━━ Reply ━━━", "  " ++ p.bold (p.green e.reply),
    [], p.gray "━━━ Timing ━━━",
    "  Total: " ++ p.green time ++ "  │  Begin: " ++ (if e.began then p.cyan time else p.dim "-") ++
      "  │  Patterns tried: " ++ p.yellow (Numeral.ofNat e.tried),
    []]

def report (p : Palette) (time line : Text) (e : Exchange) : Text :=
  (reportLines p time line e).flatMap (· ++ ['\n'])

end Dialogue.Shell
