import Dialogue.Message.Substitution
import Dialogue.Engine

/-! The form in which messages are compared with triggers. -/
namespace Dialogue

open Text

/-- Letters, digits and the underscore of ASCII, and the blank. -/
def isPlain (c : Char) : Bool := c.isAlphanum || c == '_' || c == ' '

/-- Characters that the bot's own reply loses besides punctuation. -/
def isReplySign (c : Char) : Bool := ".?,!;:@#$%^&*()".toList.contains c

def isMarkupSign (c : Char) : Bool := c == '\\' || c == '<' || c == '>'

structure Canon where
  utf8 : Bool := false
  punctuation : Stripper := .usual
  substitution : Substitution := {}

/-- What is left of a text in small letters; more is taken from the bot's own reply. -/
def Canon.clean (c : Canon) (ownReply : Bool) (t : Text) : Text :=
  if c.utf8 then
    let kept := c.punctuation.strip (t.filter (!isMarkupSign ·))
    if ownReply then kept.filter (!isReplySign ·) else kept
  else t.filter isPlain

def Canon.format (c : Canon) (ownReply : Bool) (t : Text) : Text :=
  collapse (c.clean ownReply (c.substitution.apply (lower t)))

end Dialogue
