import Dialogue.Pattern.Expression

/-! The engine of regular expressions is no part of a bot: it comes from outside and is only assumed
to do what it promises. It takes an expression or refuses it by limits of its own, so what is said of all
bots is said of all engines, and where an expression has to be taken, that is a condition. -/
namespace Dialogue

/-- Takes the matches of a compiled expression out of a text. The rest stays as it is, in its
order. -/
@[ext]
structure Stripper where
  strip : Text → Text
  sublist (t : Text) : (strip t).Sublist t

/-- What messages lose among the letters of all scripts, if the owner of the bot does not choose. -/
def isUsualPunctuation (c : Char) : Bool := ".,!?;:".toList.contains c

def usualPunctuation : Text := "[.,!?;:]"

def Stripper.usual : Stripper where
  strip t := t.filter (!isUsualPunctuation ·)
  sublist _ := List.filter_sublist

/-- What an expression that is well formed goes beyond, with the words of the engine about it. -/
inductive Limit where
  | depth (said : Text)
  | size (said : Text)
  deriving DecidableEq, Repr

def Limit.message : Limit → Text
  | .depth said | .size said => said

structure Engine where
  /-- What strips messages of what the owner of a bot has written, if the engine takes it. -/
  stripper? : Text → Option Stripper
  /-- A class of characters takes out those characters. -/
  usual : ∀ s, stripper? usualPunctuation = some s → ∀ t, s.strip t = Stripper.usual.strip t
  /-- Why the engine does not take what an expression is written as. It is always well formed, so
  only a limit is in its way. -/
  refusal? : Expression → Option Limit
  /-- Whether the engine takes a phrase together with what may stand around it. -/
  takesPhrase : Text → Bool

/-- What strips messages of a written expression, or of the usual punctuation where the engine does not
take it. -/
def Engine.stripper (engine : Engine) (written : Text) : Stripper :=
  (engine.stripper? written).getD .usual

theorem Engine.stripper_usual (engine : Engine) : engine.stripper usualPunctuation = .usual := by
  rw [stripper]
  cases h : engine.stripper? usualPunctuation with
  | none => rfl
  | some s => exact Stripper.ext (funext (engine.usual s h))

/-- Why a pattern cannot be matched. -/
inductive Refusal where
  | malformed (cause : Malformed)
  | limit (l : Limit)
  deriving DecidableEq, Repr

def Refusal.message : Refusal → Text
  | .malformed cause => cause.message
  | .limit l => l.message

end Dialogue
