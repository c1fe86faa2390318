import Dialogue.Proofs.Reply
import Dialogue.Proofs.Table

/-! What is done with the users of a bot. A reply alters the profile of its own user and nothing else
that is remembered of anybody, and it puts nothing on record before it is complete. -/
namespace Dialogue

open Answering

theorem Table.alter_alter {β : Type} (t : Table β) (key : Text) (absent : β) (f g : β → β) :
    (t.alter key absent f).alter key absent g = t.alter key absent (g ∘ f) := by
  obtain ⟨entries⟩ := t
  show Table.mk (alterEntry key absent g (alterEntry key absent f entries)) = ⟨_⟩
  congr 1
  induction entries with
  | nil => simp [alterEntry]
  | cons e entries ih =>
    obtain ⟨k, v⟩ := e
    by_cases hk : k = key
    · simp [alterEntry, hk]
    · simp [alterEntry, hk, ih]

namespace Table

variable {β : Type} {t : Table β} {key other : Text} {value v : β}

theorem find?_of_erase (h : (t.erase key).find? other = some v) : t.find? other = some v := by
  by_cases hother : other = key
  · rw [hother, find?_erase_self] at h
    cases h
  · rwa [find?_erase_of_ne t hother] at h

theorem find?_of_set (h : (t.set key value).find? other = some v) :
    (other = key ∧ value = v) ∨ t.find? other = some v := by
  by_cases hother : other = key
  · rw [hother, find?_set_self] at h
    exact .inl ⟨hother, Option.some.inj h⟩
  · rw [find?_set_of_ne t value hother] at h
    exact .inr h

end Table

namespace Roster

/-- What is known of a user; a new one is as all new ones are. -/
def profile (r : Roster) (user : Text) : Profile := (r.profile? user).getD {}

variable (r : Roster) (user : Text)

theorem profile?_alter (f : Profile → Profile) (other : Text) :
    (r.alter user f).profile? other =
      if other = user then some (f (r.profile user)) else r.profile? other :=
  Table.find?_alter r.users user {} f other

theorem profile?_alter_self (f : Profile → Profile) :
    (r.alter user f).profile? user = some (f (r.profile user)) := by
  rw [profile?_alter, if_pos rfl]

theorem profile?_alter_of_ne {other : Text} (h : other ≠ user) (f : Profile → Profile) :
    (r.alter user f).profile? other = r.profile? other := by
  rw [profile?_alter, if_neg h]

theorem alter_alter (f g : Profile → Profile) :
    (r.alter user f).alter user g = r.alter user (g ∘ f) := by
  rw [alter, alter, alter, Table.alter_alter]

theorem history_eq : r.history user = (r.profile user).history := by
  rw [history, profile]
  cases r.profile? user <;> rfl

/-- Everything that can be done with a roster. -/
inductive Operation where
  | welcome (user : Text)
  | setVar (user name : Text) (value : Option Text)
  | setVars (user : Text) (vars : List (Text × Text))
  | setLastMatch (user pattern : Text)
  | record (user input reply : Text)
  | clear (user : Text)
  | clearAll
  | freeze (user : Text)
  | thaw (user : Text) (action : Thaw)

def Operation.perform : Operation → Roster → Roster
  | welcome user, r => r.welcome user
  | setVar user name value, r => r.setVar user name value
  | setVars user vars, r => r.setVars user vars
  | setLastMatch user pattern, r => r.setLastMatch user pattern
  | record user input reply, r => r.record user input reply
  | clear user, r => r.clear user
  | clearAll, _ => {}
  | freeze user, r => r.freeze user
  | thaw user action, r => r.thaw user action

theorem profile?_setVars_of_ne {other : Text} (h : other ≠ user) (vars : List (Text × Text)) :
    (r.setVars user vars).profile? other = r.profile? other := by
  induction vars generalizing r with
  | nil => rfl
  | cons v vars ih => exact (ih (r.setVar user v.1 (some v.2))).trans (r.profile?_alter_of_ne user h _)

theorem frozen_setVars (vars : List (Text × Text)) : (r.setVars user vars).frozen = r.frozen := by
  induction vars generalizing r with
  | nil => rfl
  | cons v vars ih => exact ih (r.setVar user v.1 (some v.2))

/-- The operation is one on this user. -/
def Operation.Concerns (user : Text) : Operation → Prop
  | welcome other | setVar other _ _ | setVars other _ | setLastMatch other _ | record other _ _
  | clear other | freeze other | thaw other _ => other = user
  | clearAll => True

/-- The profile and the copy of a user are the same in both rosters. -/
structure SameFor (user : Text) (r s : Roster) : Prop where
  profile? : s.profile? user = r.profile? user
  frozen : s.frozen.find? user = r.frozen.find? user

/-- An operation on another user leaves a user alone. -/
theorem sameFor_perform {user : Text} (op : Operation) (h : ¬ op.Concerns user) (r : Roster) :
    r.SameFor user (op.perform r) := by
  cases op with
  | welcome other | setVar other | setLastMatch other | record other =>
    exact ⟨r.profile?_alter_of_ne other (Ne.symm h) _, rfl⟩
  | setVars other vars =>
    constructor
    · exact r.profile?_setVars_of_ne other (Ne.symm h) vars
    · rw [Operation.perform, frozen_setVars]
  | clear other =>
    exact ⟨Table.find?_erase_of_ne _ (Ne.symm h), Table.find?_erase_of_ne _ (Ne.symm h)⟩
  | clearAll => exact absurd trivial h
  | freeze other =>
    simp only [Operation.perform, Roster.freeze]
    cases r.profile? other with
    | none => exact ⟨rfl, rfl⟩
    | some p => exact ⟨rfl, Table.find?_set_of_ne _ _ (Ne.symm h)⟩
  | thaw other action =>
    simp only [Operation.perform, Roster.thaw]
    cases r.frozen.find? other with
    | none => exact ⟨rfl, rfl⟩
    | some p =>
      have hset : (r.users.set other p).find? user = r.users.find? user :=
        Table.find?_set_of_ne _ _ (Ne.symm h)
      have herase : (r.frozen.erase other).find? user = r.frozen.find? user :=
        Table.find?_erase_of_ne _ (Ne.symm h)
      cases action with
      | restore => exact ⟨hset, herase⟩
      | discard => exact ⟨rfl, herase⟩
      | keep => exact ⟨hset, rfl⟩

/-- What a reply may do to a roster before it is complete. -/
structure Touched (user : Text) (r s : Roster) : Prop where
  others : ∀ other, other ≠ user → s.profile? other = r.profile? other
  frozen : s.frozen = r.frozen
  known : (r.profile? user).isSome → (s.profile? user).isSome
  history : s.history user = r.history user

namespace Touched

variable {r s t : Roster} {user : Text}

theorem refl (r : Roster) : r.Touched user r := ⟨fun _ _ => rfl, rfl, id, rfl⟩

theorem of_eq (h : s = r) : r.Touched user s := by
  rw [h]
  exact .refl r

theorem trans (h : r.Touched user s) (k : s.Touched user t) : r.Touched user t where
  others other hne := (k.others other hne).trans (h.others other hne)
  frozen := k.frozen.trans h.frozen
  known := k.known ∘ h.known
  history := k.history.trans h.history

theorem alter {f : Profile → Profile} (hf : ∀ p, (f p).history = p.history) :
    r.Touched user (r.alter user f) where
  others _ hne := r.profile?_alter_of_ne user hne f
  frozen := rfl
  known _ := by
    rw [profile?_alter_self]
    rfl
  history := by
    rw [history_eq, profile, profile?_alter_self, history_eq]
    exact hf _

theorem history_of_ne (h : r.Touched user s) {other : Text} (hne : other ≠ user) :
    s.history other = r.history other := by
  rw [Roster.history, Roster.history, h.others other hne]

end Touched

end Roster

namespace Bot

variable (b : Bot)

theorem roster_hotLoad (code : Text) : (b.hotLoad code).2.roster = b.roster := by
  have hstream : ∀ {c}, b.stream code = .ok c → c.roster = b.roster := by
    intro c hc
    obtain ⟨doc, -, rfl⟩ := ok_of_map hc
    rfl
  rw [hotLoad]
  split
  · rfl
  · rename_i loaded hload
    have hloaded := hstream hload
    split
    · exact hloaded
    · rename_i sorted hsort
      obtain ⟨p, -, rfl⟩ := ok_of_map hsort
      exact hloaded

theorem admitsRun_touched (a : Asking) :
    AdmitsRun a fun _ _ p q => p.bot.roster.Touched a.user q.bot.roster where
  step _ _ :=
    { refl := fun p => .refl p.bot.roster
      trans := .trans
      draw := fun p _ => .refl p.bot.roster
      setVar := fun _ _ _ => .alter fun _ => rfl
      setBotVar := fun p _ _ => .refl p.bot.roster
      setGlobal := fun p _ _ => .refl p.bot.roster
      hotLoad := fun p code => .of_eq (p.bot.roster_hotLoad code)
      setLastMatch := fun _ _ => .alter fun _ => rfl
      countTried := fun p _ => .refl p.bot.roster
      record := fun p _ _ => .refl p.bot.roster }
  openStep := fun _ _ _ h => h
  lower := fun h => h

/-- The message in its final form and the reply, of an exchange that is to be remembered: there is a
reply, and the bot has been sorted. -/
def exchange? (draws : List Nat) (user message : Text) : Option (Text × Text) :=
  match b.playbook, (b.reply draws user message).result with
  | some _, .ok e => some (e.message, e.reply)
  | _, _ => none

def remember (r : Roster) (user : Text) : Option (Text × Text) → Roster
  | some (input, reply) => r.record user input reply
  | none => r

/-- A reply touches what is known of its user, and at its end the exchange is remembered. -/
theorem roster_reply (draws : List Nat) (user message : Text) :
    ∃ r, b.roster.Touched user r ∧
      (b.reply draws user message).bot.roster = remember r user (b.exchange? draws user message) := by
  cases hp : b.playbook with
  | none =>
    refine ⟨b.roster, .refl _, ?_⟩
    rw [exchange?, reply, hp]
    rfl
  | some p =>
    have hwelcome : b.roster.Touched user (b.roster.welcome user) := .alter fun _ => rfl
    have hanswer := Answer.moves_answer (admitsRun_touched ⟨user, p⟩) (p.canon.format false message)
      { bot := b.onRoster (·.welcome user), draws }
    have hrun : b.roster.Touched user (b.answered p draws user message).2.bot.roster :=
      hwelcome.trans hanswer
    rcases hr : b.answered p draws user message with ⟨result, q⟩
    rw [hr] at hrun
    refine ⟨q.bot.roster, hrun, ?_⟩
    rw [exchange?, hp]
    cases result with
    | error fault =>
      rw [reply_of_fault hp hr]
      rfl
    | ok text =>
      rw [reply_of_text hp hr]
      rfl

end Bot

end Dialogue
