import Dialogue.Proofs.Usage

/-! Frozen copies of users. A copy stays as it was made, whatever else is done, until its user is
cleared, frozen again or thawed for good, so thawing brings back what was frozen. -/
namespace Dialogue

namespace Roster

variable {r s : Roster} {user : Text}

/-- Whoever has a copy is known. -/
def CopiesKnown (r : Roster) : Prop :=
  ∀ user, (r.frozen.find? user).isSome → (r.profile? user).isSome

theorem isSome_profile?_alter (r : Roster) (user : Text) (f : Profile → Profile) {other : Text}
    (h : (r.profile? other).isSome) : ((r.alter user f).profile? other).isSome := by
  rw [profile?_alter]
  split
  · rfl
  · exact h

theorem CopiesKnown.alter (h : r.CopiesKnown) (user : Text) (f : Profile → Profile) :
    (r.alter user f).CopiesKnown :=
  fun other hcopy => r.isSome_profile?_alter user f (h other hcopy)

theorem CopiesKnown.touched (h : r.Touched user s) (hr : r.CopiesKnown) : s.CopiesKnown := by
  intro other hcopy
  rw [h.frozen] at hcopy
  by_cases hother : other = user
  · subst hother
    exact h.known (hr other hcopy)
  · rw [h.others other hother]
    exact hr other hcopy

theorem CopiesKnown.setVars (h : r.CopiesKnown) (user : Text) (vars : List (Text × Text)) :
    (r.setVars user vars).CopiesKnown := by
  induction vars generalizing r with
  | nil => exact h
  | cons v vars ih => exact ih (h.alter user _)

theorem CopiesKnown.freeze_self (h : r.CopiesKnown)
    (hcopy : ((r.freeze user).frozen.find? user).isSome) :
    ((r.freeze user).profile? user).isSome := by
  simp only [Roster.freeze] at hcopy ⊢
  cases hp : r.profile? user with
  | none =>
    rw [hp] at hcopy
    have hknown := h user hcopy
    rw [hp] at hknown
    cases hknown
  | some p =>
    show (r.profile? user).isSome
    rw [hp]
    rfl

theorem CopiesKnown.thaw_self (h : r.CopiesKnown) (action : Thaw)
    (hcopy : ((r.thaw user action).frozen.find? user).isSome) :
    ((r.thaw user action).profile? user).isSome := by
  simp only [Roster.thaw] at hcopy ⊢
  cases hp : r.frozen.find? user with
  | none =>
    rw [hp] at hcopy
    exact h user hcopy
  | some p =>
    have hset : ((r.users.set user p).find? user).isSome := by
      rw [Table.find?_set_self]
      rfl
    cases action with
    | restore => exact hset
    | discard =>
      have hcopied : (r.frozen.find? user).isSome := by
        rw [hp]
        rfl
      exact h user hcopied
    | keep => exact hset

/-- The user an operation is on is looked at by cases, everybody else is left alone by it. -/
theorem CopiesKnown.perform (op : Operation) (r : Roster) (h : r.CopiesKnown) :
    (op.perform r).CopiesKnown := by
  intro other hcopy
  by_cases hconcerns : op.Concerns other
  · cases op with
    | welcome user | setVar user | setLastMatch user | record user =>
      exact h.alter user _ other hcopy
    | setVars user vars => exact h.setVars user vars other hcopy
    | clear user =>
      obtain rfl : user = other := hconcerns
      have hnone : (r.frozen.erase user).find? user = none := Table.find?_erase_self _ _
      simp only [Operation.perform, Roster.clear, hnone, Option.isSome_none] at hcopy
      cases hcopy
    | clearAll => cases hcopy
    | freeze user =>
      obtain rfl : user = other := hconcerns
      exact h.freeze_self hcopy
    | thaw user action =>
      obtain rfl : user = other := hconcerns
      exact h.thaw_self action hcopy
  · have hsame := sameFor_perform _ hconcerns r
    rw [hsame.frozen] at hcopy
    rw [hsame.profile?]
    exact h other hcopy

/-! ### What becomes of a copy -/

/-- Operations that take the copy of a user away or make a new one. -/
def Operation.EndsCopy (user : Text) : Operation → Prop
  | freeze other | clear other => other = user
  | clearAll => True
  | thaw other action => other = user ∧ action ≠ .keep
  | _ => False

def Operation.MakesCopy (user : Text) : Operation → Prop
  | freeze other => other = user
  | _ => False

theorem frozen_perform {op : Operation} (h : ¬ op.EndsCopy user) (r : Roster) :
    (op.perform r).frozen.find? user = r.frozen.find? user := by
  by_cases hconcerns : op.Concerns user
  · cases op with
    | welcome | setVar | setLastMatch | record => rfl
    | setVars other vars => rw [Operation.perform, frozen_setVars]
    | clear | clearAll | freeze => exact absurd hconcerns h
    | thaw other action =>
      have hkeep : action = .keep := by
        by_contra hne
        exact h ⟨hconcerns, hne⟩
      subst hkeep
      simp only [Operation.perform, thaw]
      split <;> rfl
  · exact (sameFor_perform _ hconcerns r).frozen

/-- Only freezing makes a copy where there is none. -/
theorem frozen_perform_eq_none {op : Operation} (h : ¬ op.MakesCopy user)
    (hr : r.frozen.find? user = none) : (op.perform r).frozen.find? user = none := by
  by_cases hconcerns : op.Concerns user
  · cases op with
    | welcome | setVar | setLastMatch | record => exact hr
    | setVars other vars =>
      rw [Operation.perform, frozen_setVars]
      exact hr
    | clear other =>
      obtain rfl : other = user := hconcerns
      exact Table.find?_erase_self _ _
    | clearAll => rfl
    | freeze => exact absurd hconcerns h
    | thaw other action =>
      obtain rfl : other = user := hconcerns
      simp only [Operation.perform, thaw, hr]
  · exact (sameFor_perform _ hconcerns r).frozen.trans hr

theorem frozen_freeze {p : Profile} (h : r.profile? user = some p) :
    (r.freeze user).frozen.find? user = some p := by
  rw [freeze, h]
  exact Table.find?_set_self _ _ _

theorem thaw_of_none (h : r.frozen.find? user = none) (action : Thaw) : r.thaw user action = r := by
  rw [thaw, h]

theorem thaw_of_some {p : Profile} (h : r.frozen.find? user = some p) (action : Thaw)
    (haction : action ≠ .discard) : (r.thaw user action).profile? user = some p := by
  rw [thaw, h]
  cases action with
  | restore => exact Table.find?_set_self _ _ _
  | discard => exact absurd rfl haction
  | keep => exact Table.find?_set_self _ _ _

theorem users_discard (r : Roster) (user : Text) : (r.thaw user .discard).users = r.users := by
  rw [thaw]
  split <;> rfl

theorem frozen_thaw_of_ne_keep (r : Roster) (user : Text) {action : Thaw} (h : action ≠ .keep) :
    (r.thaw user action).frozen.find? user = none := by
  rw [thaw]
  cases hp : r.frozen.find? user with
  | none => exact hp
  | some p =>
    cases action with
    | restore => exact Table.find?_erase_self _ _
    | discard => exact Table.find?_erase_self _ _
    | keep => exact absurd rfl h

theorem sameFor_thaw_of_ne (r : Roster) {other : Text} (h : other ≠ user) (action : Thaw) :
    r.SameFor other (r.thaw user action) :=
  sameFor_perform (.thaw user action) (Ne.symm h) r

end Roster

namespace Bot

variable {b : Bot} {user : Text}

theorem Reachable.copiesKnown (h : b.Reachable) : b.roster.CopiesKnown := by
  obtain ⟨settings, ops, rfl⟩ := h
  have hnew : Roster.CopiesKnown {} := fun _ h => nomatch h
  exact roster_performAll (M := fun _ => True) (fun op r _ => Roster.CopiesKnown.perform op r)
    Roster.CopiesKnown.touched (fun _ _ _ => trivial) (fun _ _ => trivial) hnew

theorem frozen_performAll {p : Profile} {ops : List Operation}
    (hops : ∀ op, .users op ∈ ops → ¬ op.EndsCopy user)
    (hb : b.roster.frozen.find? user = some p) :
    (b.performAll ops).roster.frozen.find? user = some p :=
  roster_performAll (I := fun r => r.frozen.find? user = some p)
    (M := fun op => ¬ op.EndsCopy user) (fun _ r hop hr => (Roster.frozen_perform hop r).trans hr)
    (fun htouched hr => htouched.frozen ▸ hr) (fun _ _ _ h => h) hops hb

theorem frozen_performAll_eq_none {ops : List Operation}
    (hops : ∀ op, .users op ∈ ops → ¬ op.MakesCopy user)
    (hb : b.roster.frozen.find? user = none) :
    (b.performAll ops).roster.frozen.find? user = none :=
  roster_performAll (I := fun r => r.frozen.find? user = none)
    (M := fun op => ¬ op.MakesCopy user) (fun _ _ hop hr => Roster.frozen_perform_eq_none hop hr)
    (fun htouched hr => htouched.frozen ▸ hr) (fun _ _ _ h => h) hops hb

/-- What comes of a copy after a run: it is restored, given up, or both, and nobody else is changed. -/
structure Thaws (r : Roster) (user : Text) (p : Profile) : Prop where
  restores : ∀ action, action ≠ .discard → (r.thaw user action).profile? user = some p
  discards : (r.thaw user .discard).users = r.users
  others : ∀ action other, other ≠ user → r.SameFor other (r.thaw user action)

theorem thaws_of_frozen {r : Roster} {p : Profile} (h : r.frozen.find? user = some p) :
    Thaws r user p where
  restores action haction := Roster.thaw_of_some h action haction
  discards := r.users_discard user
  others action _ hother := r.sameFor_thaw_of_ne hother action

/-- Whoever has a copy is known. What is frozen is what thawing restores, if the copy has not been
ended in between. A copy that was thawed for good or discarded does nothing any more. -/
theorem thawed_as_frozen (hb : b.Reachable) :
    (∀ user, (b.roster.frozen.find? user).isSome → (b.roster.profile? user).isSome) ∧
    (∀ user p ops, b.roster.profile? user = some p →
      (∀ op, .users op ∈ ops → ¬ op.EndsCopy user) →
        Thaws (performAll (.users (.freeze user) :: ops) b).roster user p) ∧
    ∀ user action ops, action ≠ .keep → (∀ op, .users op ∈ ops → ¬ op.MakesCopy user) →
      ∀ again, let c := performAll (.users (.thaw user action) :: ops) b
        c.roster.thaw user again = c.roster := by
  refine ⟨hb.copiesKnown, ?_, ?_⟩
  · intro user p ops hp hops
    have hcopy : (b.onRoster (·.freeze user)).roster.frozen.find? user = some p :=
      Roster.frozen_freeze hp
    have hlater : ((b.onRoster (·.freeze user)).performAll ops).roster.frozen.find? user = some p :=
      frozen_performAll hops hcopy
    exact thaws_of_frozen hlater
  · intro user action ops haction hops again
    have hnone : (b.onRoster (·.thaw user action)).roster.frozen.find? user = none :=
      b.roster.frozen_thaw_of_ne_keep user haction
    have hlater : ((b.onRoster (·.thaw user action)).performAll ops).roster.frozen.find? user = none :=
      frozen_performAll_eq_none hops hnone
    exact Roster.thaw_of_none hlater again

def cheered : List Operation :=
  [.stream "+ *\n- <set mood=tired>Phew.\n", .sort, .users (.setVar "ann" "mood" (some "happy"))]

/-- A reply, other users, and a copy that is restored and kept. -/
def longDay : List Operation :=
  [.reply [] "ann" "What a day!", .users (.freeze "bob"), .users (.thaw "ann" .keep),
    .reply [] "ann" "Still!", .users (.clear "bob")]

def morning : Bot := performAll cheered {}

def evening : Bot := performAll (.users (.freeze "ann") :: longDay) morning

theorem mood_thawed : ∃ p : Profile, p.vars.find? "mood" = some ("happy" : Text) ∧
    evening.roster.var? "ann" "mood" = some ("tired" : Text) ∧
    (evening.roster.thaw "ann" .restore).profile? "ann" = some p ∧
    ∀ again, let next := performAll (.users (.thaw "ann" .restore) :: longDay) evening
      next.roster.thaw "ann" again = next.roster := by
  have hmorning : morning.Reachable := ⟨{}, cheered, rfl⟩
  have hevening : evening.Reachable := hmorning.performAll (.users (.freeze "ann") :: longDay)
  have hknown : (morning.roster.profile? "ann").isSome := by
    decide +kernel
  have hhappy : morning.roster.var? "ann" "mood" = some ("happy" : Text) := by
    decide +kernel
  have htired : evening.roster.var? "ann" "mood" = some ("tired" : Text) := by
    decide +kernel
  have hlasting : ∀ op, .users op ∈ longDay → ¬ op.EndsCopy "ann" := by
    simp [longDay, Roster.Operation.EndsCopy]
  have hnone : ∀ op, .users op ∈ longDay → ¬ op.MakesCopy "ann" := by
    simp [longDay, Roster.Operation.MakesCopy]
  obtain ⟨p, hp⟩ := Option.isSome_iff_exists.mp hknown
  rw [Roster.var?, hp] at hhappy
  have hthaws := (thawed_as_frozen hmorning).2.1 "ann" p longDay hp hlasting
  have hnothing := (thawed_as_frozen hevening).2.2 "ann" .restore longDay (by decide) hnone
  exact ⟨p, hhappy, htired, hthaws.restores .restore (by decide), hnothing⟩

end Bot

end Dialogue
