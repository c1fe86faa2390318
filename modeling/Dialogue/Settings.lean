import Dialogue.Engine.Standard
import Dialogue.Text.Space
import Dialogue.Text.Case

/-! What the owner of a bot can choose, and the engine that comes with it. -/
namespace Dialogue

inductive Joiner where
  | nothing
  | newline
  | space
  deriving DecidableEq, Repr

namespace Joiner

def separator : Joiner → Text
  | .nothing => ""
  | .newline => "\n"
  | .space => " "

def name : Joiner → Text
  | .nothing => "none"
  | .newline => "newline"
  | .space => "space"

/-- The name as it is looked up: without surrounding space, in small letters. -/
def canonicalName (t : Text) : Text := Text.lowerAscii (Text.trim t)

def ofName? (t : Text) : Option Joiner :=
  [nothing, newline, space].find? fun j => j.name = canonicalName t

end Joiner

structure Wording where
  tooDeep : Text := "ERR: Deep Recursion Detected"
  notSorted : Text := "ERR: Replies Not Sorted"
  noDefaultTopic : Text := "ERR: No default topic 'random' was found"
  notMatched : Text := "ERR: No Reply Matched"
  noReply : Text := "ERR: No Reply Found"
  noObject : Text := "[ERR: Object Not Found]"
  zeroDivisor : Text := "[ERR: Can't Divide By Zero]"
  badVariable : Text := "[ERR: Can't perform math operation on non-numeric variable]"
  badValue : Text := "[ERR: Can't perform math operation on non-numeric value]"
  deriving DecidableEq, Repr

structure Settings where
  /-- Setbacks of a reply are faults, not reply texts. -/
  throws : Bool := false
  /-- Malformed lines and patterns are refused. -/
  strict : Bool := false
  /-- Messages keep characters beyond ASCII. -/
  utf8 : Bool := false
  /-- Regular expression for what messages lose when they keep the rest. -/
  punctuation : Text := usualPunctuation
  /-- Triggers and topic names are read in lower case. -/
  foldCase : Bool := false
  joiner : Joiner := .nothing
  /-- How deep redirects and topic walks may go. -/
  depth : Nat := 50
  debug : Bool := false
  wording : Wording := {}
  /-- What takes regular expressions. Bots cannot choose it. -/
  engine : Engine := .standard

def Settings.basic : Settings := { strict := true }

def Settings.unicode : Settings := { Settings.basic with utf8 := true }

end Dialogue
