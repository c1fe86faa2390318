import Dialogue.Script.Command
import Dialogue.Engine
import Dialogue.Files
import Dialogue.Text.Numeral

/-! What can go wrong, and how it is said. -/
namespace Dialogue

inductive Setback where
  | notSorted
  | noDefaultTopic
  | notMatched
  | noReply
  | tooDeep
  deriving DecidableEq, Repr

def Wording.text (w : Wording) : Setback → Text
  | .notSorted => w.notSorted
  | .noDefaultTopic => w.noDefaultTopic
  | .notMatched => w.notMatched
  | .noReply => w.noReply
  | .tooDeep => w.tooDeep

inductive Fault where
  | setback (kind : Setback) (text : Text)
  | pattern (pattern : Text) (cause : Refusal)
  | line (source : Text) (number : Nat) (cause : SyntaxFault)
  | version (source : Text) (number : Nat) (found : Text)
  | unreadable (path : Text) (cause : ReadFailure)
  deriving DecidableEq, Repr

namespace Fault

def isSetback : Fault → Bool
  | .setback .. => true
  | _ => false

/-- What happened, without the reason that the file system gives. -/
def summary : Fault → Text
  | .setback _ text => text
  | .pattern written cause => "invalid pattern '" ++ written ++ "': " ++ cause.message
  | .line source number cause =>
    "syntax error at " ++ source ++ " line " ++ Numeral.ofNat number ++ ": " ++ cause.message
  | .version source number found =>
    "unsupported script version " ++ found ++ " at " ++ source ++ " line " ++
      Numeral.ofNat number ++ " (supported: 2)"
  | .unreadable path _ => "failed to read '" ++ path ++ "'"

def message (f : Fault) : Text :=
  match f with
  | .unreadable _ cause => f.summary ++ ": " ++ cause.message
  | _ => f.summary

end Fault

end Dialogue
