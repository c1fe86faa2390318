import Dialogue.Reply.Process

/-! Tags that read and write variables. -/
namespace Dialogue.Variable

open Text Answering

inductive Operation where
  | add
  | sub
  | mult
  | div
  deriving DecidableEq, Repr

def Operation.all : List (Text × Operation) :=
  [("add", .add), ("sub", .sub), ("mult", .mult), ("div", .div)]

/-- Division goes toward zero; the divisor is not zero. -/
def Operation.result (op : Operation) (a b : Int) : Int :=
  match op with
  | .add => a + b
  | .sub => a - b
  | .mult => a * b
  | .div => a.tdiv b

inductive MathFault where
  | badValue
  | badVariable
  | zeroDivisor
  deriving DecidableEq, Repr

def MathFault.text (w : Wording) : MathFault → Text
  | .badValue => w.badValue
  | .badVariable => w.badVariable
  | .zeroDivisor => w.zeroDivisor

/-- The new value of a variable, which counts as zero if it is not set. A result that does not
fit is a fault of the value. -/
def Operation.apply (op : Operation) (current : Option Text) (value : Text) :
    Except MathFault Int :=
  match Numeral.integer? value with
  | none => .error .badValue
  | some operand =>
    match Numeral.integer? (trim (current.getD "0")) with
    | none => .error .badVariable
    | some current =>
      if op = .div ∧ operand = 0 then .error .zeroDivisor
      else
        let result := op.result current operand
        if Numeral.fits result then .ok result else .error .badValue

def assignment? (t : Text) : Option (Text × Text) :=
  (cutAt? (· = '=') t).map fun (name, value) => (trim name, trim value)

def math (user : Text) (op : Operation) (data : Text) : Answering Text := do
  match assignment? data with
  | none => return []
  | some (name, value) =>
    let b ← bot
    match op.apply (b.roster.var? user name) value with
    | .error fault => return fault.text b.settings.wording
    | .ok result =>
      onRoster (·.setVar user name (some (Numeral.ofInt result)))
      return []

/-- A variable of the bot itself: assigned, or named to be shown. -/
def botVariable (table : Bot → Table Text) (set : Text → Option Text → Bot → Bot) (data : Text) :
    Answering Text := do
  match assignment? data with
  | some (name, value) =>
    changeBot (set name (some value))
    return []
  | none => return ((table (← bot)).find? data).getD undefinedText

def split (tag : Text) : Text × Text :=
  match cutAt? (· = ' ') tag with
  | some (name, data) => (lower name, trim data)
  | none => (lower tag, [])

/-- What takes the place of a tag without tags inside. Unknown tags are given to `other`. -/
def tag (user : Text) (other : Text → Text) (body : Text) : Answering Text := do
  let (name, data) := split body
  if name = "bot" then botVariable Bot.vars (fun name value b => b.setVar name value) data
  else if name = "env" then
    botVariable Bot.globals (fun name value b => b.setGlobal name value) data
  else if name = "set" then
    match assignment? data with
    | some (name, value) => onRoster (·.setVar user name (some value))
    | none => pure ()
    return []
  else if name = "get" then return (((← bot).roster.var? user data).getD undefinedText)
  else match Operation.all.lookup name with
    | some op => math user op data
    | none => return other body

end Dialogue.Variable
