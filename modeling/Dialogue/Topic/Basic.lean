import Dialogue.Table

/-! Rules and the topics that hold them. -/
namespace Dialogue

structure Rule where
  pattern : Text
  replies : List Text := []
  conditions : List Text := []
  redirect : Option Text := none
  /-- The bot's last reply has to match this one too. -/
  previous : Option Text := none
  deriving DecidableEq, Repr

/-- Rules of included topics count as the topic's own, those of inherited topics come after
them. -/
structure Topic where
  rules : List Rule := []
  includes : List Text := []
  inherits : List Text := []
  deriving DecidableEq, Repr

namespace Topic

/-- Where every conversation starts. -/
def default : Text := "random"

/-- Holds what is done before each reply. -/
def begin : Text := "__begin__"

def addName (names : List Text) (name : Text) : List Text :=
  if name ∈ names then names else names ++ [name]

def addInclude (t : Topic) (name : Text) : Topic := { t with includes := addName t.includes name }

def addInherit (t : Topic) (name : Text) : Topic := { t with inherits := addName t.inherits name }

def addRule (t : Topic) (r : Rule) : Topic := { t with rules := t.rules ++ [r] }

def alterRule (t : Topic) (index : Nat) (f : Rule → Rule) : Topic :=
  { t with rules := t.rules.modify index f }

/-- Where the first rule stands that has the pattern and does not look back at the bot's last
reply. -/
def owns? (t : Topic) (pattern : Text) : Option Nat :=
  t.rules.findIdx? fun r => r.previous.isNone && r.pattern = pattern

def merge (t u : Topic) : Topic :=
  { rules := t.rules ++ u.rules
    includes := u.includes.foldl addName t.includes
    inherits := u.inherits.foldl addName t.inherits }

end Topic

end Dialogue
