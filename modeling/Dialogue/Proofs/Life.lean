import Dialogue.Proofs.Reply
import Mathlib.Logic.Relation

/-! The life of a bot. Whatever is done with it, and all that replies do to it themselves, is made
of a few changes, so what each of them keeps is true for good. -/
namespace Dialogue

open Answering

namespace Bot

/-- What can be done with a bot. A document counts as loaded wherever it comes from, and users and
callables change as they like. -/
inductive Change (b : Bot) : Bot → Prop where
  | absorb (doc : Document) : Change b (b.absorb doc)
  | sort {c : Bot} : b.sort = .ok c → Change b c
  | setVar (name : Text) (value : Option Text) : Change b (b.setVar name value)
  | setGlobal (name : Text) (value : Option Text) : Change b (b.setGlobal name value)
  | setSubstitution (name : Text) (value : Option Text) : Change b (b.setSubstitution name value)
  | setPerson (name : Text) (value : Option Text) : Change b (b.setPerson name value)
  | onRoster (f : Roster → Roster) : Change b (b.onRoster f)
  | onCallables (f : Callables → Callables) : Change b (b.onCallables f)

/-- What becomes of a bot. -/
def Later : Bot → Bot → Prop := Relation.ReflTransGen Change

variable {b c d : Bot}

theorem Later.refl (b : Bot) : b.Later b := Relation.ReflTransGen.refl

theorem Later.trans (h : b.Later c) (k : c.Later d) : b.Later d := Relation.ReflTransGen.trans h k

theorem Change.later (h : Change b c) : b.Later c := Relation.ReflTransGen.single h

theorem Later.keeps {I : Bot → Prop} (hI : ∀ {b c}, Change b c → I b → I c) (h : b.Later c)
    (hb : I b) : I c := by
  induction h with
  | refl => exact hb
  | tail _ hchange ih => exact hI hchange ih

/-- A bot is as its owner chose it. -/
theorem Later.settings (h : b.Later c) : c.settings = b.settings := by
  refine h.keeps (I := fun d => d.settings = b.settings) (fun hchange hd => ?_) rfl
  cases hchange with
  | sort hsort =>
    obtain ⟨p, -, rfl⟩ := ok_of_map hsort
    exact hd
  | _ => exact hd

/-! ### Loading -/

theorem later_load {source code : Text} (h : b.load source code = .ok c) : b.Later c := by
  obtain ⟨doc, -, rfl⟩ := ok_of_map h
  exact (Change.absorb doc).later

theorem later_hotLoad (b : Bot) (code : Text) : b.Later (b.hotLoad code).2 := by
  rw [hotLoad]
  split
  · exact .refl b
  · rename_i loaded hload
    have hloaded : b.Later loaded := later_load hload
    split
    · exact hloaded
    · rename_i sorted hsort
      exact hloaded.trans (Change.sort hsort).later

/-! ### Replies -/

theorem admits_later (user : Text) : Admits user Later where
  refl := .refl
  trans := .trans
  alter _ _ := (Change.onRoster _).later
  setVar _ _ _ := (Change.setVar _ _).later
  setGlobal _ _ _ := (Change.setGlobal _ _).later
  hotLoad := later_hotLoad

theorem later_reply (b : Bot) (draws : List Nat) (user message : Text) :
    b.Later (b.reply draws user message).bot := (admits_later user).reply b draws message

end Bot

end Dialogue
