import Dialogue.Bot

/-! A reply in the making. It changes the bot as it goes, keeps a record of its steps, and draws
lots from a list, so that it is a function of the bot, the message and the draws. -/
namespace Dialogue

/-- What one message, sent by the user or by a redirect, was compared with. -/
structure Step where
  depth : Nat
  topic : Text
  message : Text
  matched : Option Text := none
  viaPrevious : Bool := false
  tried : Nat := 0
  begin : Bool := false
  deriving DecidableEq, Repr

structure Process where
  bot : Bot
  steps : List Step := []
  tried : Nat := 0
  draws : List Nat := []

namespace Lot

def total (chances : List Nat) : Nat := chances.foldr (· + ·) 0

def usual (chances : List Nat) : Nat :=
  total (chances.takeWhile (· < chances.foldl max 0))

end Lot

/-- A fault ends the reply; what was changed before it stays changed. -/
abbrev Answering := ExceptT Fault (StateM Process)

namespace Answering

def bot : Answering Bot := do return (← get).bot

def changeBot (f : Bot → Bot) : Answering Unit := modify fun p => { p with bot := f p.bot }

def onRoster (f : Roster → Roster) : Answering Unit := changeBot (·.onRoster f)

/-- One of the chances, counted from zero. When the draws are used up, the most likely lot
wins. -/
def draw (chances : List Nat) : Answering Nat := do
  let p ← get
  match p.draws with
  | [] => return Lot.usual chances
  | d :: draws =>
    set { p with draws }
    return d % Lot.total chances

def openStep (s : Step) : Answering Nat := do
  let p ← get
  set { p with steps := p.steps ++ [s] }
  return p.steps.length

def onStep (position : Nat) (f : Step → Step) : Answering Unit :=
  modify fun p => { p with steps := p.steps.modify position f }

def countTried (position n : Nat) : Answering Unit := do
  modify fun p => { p with tried := p.tried + n }
  onStep position fun s => { s with tried := s.tried + n }

/-- Ends with a setback: its text is the reply, unless the bot throws. -/
def setback (kind : Setback) : Answering Text := do
  let settings := (← bot).settings
  let text := settings.wording.text kind
  if settings.throws then throw (.setback kind text) else return text

end Answering

end Dialogue
