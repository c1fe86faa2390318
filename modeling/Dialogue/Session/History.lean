import Dialogue.Text.Basic

/-! What was said lately. -/
namespace Dialogue

/-- Stands for any variable, star or past message that does not exist. -/
def undefinedText : Text := "undefined"

/-- Messages and replies of the last nine exchanges, newest first. -/
structure History where
  inputs : List Text := List.replicate 9 undefinedText
  replies : List Text := List.replicate 9 undefinedText
  deriving DecidableEq, Repr

namespace History

def size : Nat := 9

def input (h : History) (ago : Nat) : Text := h.inputs.getD ago undefinedText

def reply (h : History) (ago : Nat) : Text := h.replies.getD ago undefinedText

def record (h : History) (input reply : Text) : History :=
  ⟨(input :: h.inputs).take size, (reply :: h.replies).take size⟩

theorem length_record (h : History) (input reply : Text)
    (hi : h.inputs.length = size) (hr : h.replies.length = size) :
    (h.record input reply).inputs.length = size ∧
      (h.record input reply).replies.length = size := by
  simp [record, hi, hr]

end History

end Dialogue
