import Dialogue.Proofs.Isolation
import Dialogue.Proofs.Mirror

/-! What was matched last is remembered of a user, but no reply looks at it. -/
namespace Dialogue

open Answering

namespace Bot

variable {b c : Bot} {user : Text}

/-- Once the same trigger is remembered to have answered the user, nothing tells the bots apart but
what waits to be sorted, and what was sorted. -/
structure ExceptMatch (user : Text) (b c : Bot) : Prop where
  known : (b.roster.profile? user).isSome = (c.roster.profile? user).isSome
  same : ∀ pattern, (b.onRoster (·.setLastMatch user pattern)).SameLive
    (c.onRoster (·.setLastMatch user pattern))

theorem SameLive.exceptMatch (h : b.SameLive c) (user : Text) : b.ExceptMatch user c where
  known := by rw [h.roster]
  same _ := h.onRoster _

/-- A bot that has only matched something else in between. -/
theorem exceptMatch_setLastMatch (hknown : (b.roster.profile? user).isSome = true) (pattern : Text) :
    b.ExceptMatch user (b.onRoster (·.setLastMatch user pattern)) where
  known := by
    rw [hknown]
    exact (congrArg Option.isSome (b.roster.profile?_alter_self user _)).symm
  same other := by
    have hroster : (b.roster.setLastMatch user pattern).setLastMatch user other =
        b.roster.setLastMatch user other := by
      rw [Roster.setLastMatch, Roster.setLastMatch, Roster.alter_alter]
      rfl
    have hbot : (b.onRoster (·.setLastMatch user pattern)).onRoster (·.setLastMatch user other) =
        b.onRoster (·.setLastMatch user other) := congrArg (fun r => { b with roster := r }) hroster
    rw [hbot]
    exact .refl _

namespace ExceptMatch

theorem trans {d : Bot} (h : b.ExceptMatch user c) (k : c.ExceptMatch user d) :
    b.ExceptMatch user d where
  known := h.known.trans k.known
  same pattern := (h.same pattern).trans (k.same pattern)

theorem seen_profile (h : b.ExceptMatch user c) :
    (b.roster.profile user).seen = (c.roster.profile user).seen := by
  have hroster := congrArg (·.profile? user) (h.same []).roster
  have hb := b.roster.profile?_alter_self user fun p => { p with lastMatch := [] }
  have hc := c.roster.profile?_alter_self user fun p => { p with lastMatch := [] }
  have hforgot := Option.some.inj (hb.symm.trans (hroster.trans hc))
  obtain ⟨hvars, -, hhistory⟩ := Profile.mk.inj hforgot
  exact Prod.ext hvars hhistory

theorem vars (h : b.ExceptMatch user c) :
    (b.roster.profile user).vars = (c.roster.profile user).vars :=
  congrArg Prod.fst h.seen_profile

/-- What replies see of the user is the same. -/
theorem seen (h : b.ExceptMatch user c) : (b.roster.profile? user).map Profile.seen =
    (c.roster.profile? user).map Profile.seen := by
  have hprofile := h.seen_profile
  have hknown := h.known
  rw [Roster.profile, Roster.profile] at hprofile
  cases hb : b.roster.profile? user with
  | none =>
    rw [hb] at hknown
    cases hc : c.roster.profile? user with
    | none => rfl
    | some q =>
      rw [hc] at hknown
      cases hknown
  | some p =>
    rw [hb] at hknown
    obtain ⟨q, hc⟩ := Option.isSome_iff_exists.mp hknown.symm
    rw [hb, hc] at hprofile
    rw [hc]
    exact congrArg some hprofile

theorem alike (h : b.ExceptMatch user c) (p : Playbook) : Alike ⟨user, p⟩ b c := by
  apply alike_of
  · exact (h.same []).settings
  · exact (h.same []).vars
  · exact (h.same []).globals
  · exact (h.same []).callables
  · exact h.seen

/-- What is done with the user, whatever was matched last. -/
theorem alter (h : b.ExceptMatch user c) {f : Profile → Profile}
    (hf : ∀ p pattern, { f p with lastMatch := pattern } = f { p with lastMatch := pattern }) :
    (b.onRoster (·.alter user f)).ExceptMatch user (c.onRoster (·.alter user f)) where
  known := by
    simp only [onRoster, Roster.profile?_alter_self, Option.isSome_some]
  same pattern := by
    have hswap : ∀ r : Roster, (r.alter user f).setLastMatch user pattern =
        (r.setLastMatch user pattern).alter user f := by
      intro r
      rw [Roster.setLastMatch, Roster.setLastMatch, Roster.alter_alter, Roster.alter_alter]
      congr 1
      funext p
      exact hf p pattern
    have hbot : ∀ d : Bot, (d.onRoster (·.alter user f)).onRoster (·.setLastMatch user pattern) =
        (d.onRoster (·.setLastMatch user pattern)).onRoster (·.alter user f) :=
      fun d => congrArg (fun r => { d with roster := r }) (hswap d.roster)
    rw [hbot, hbot]
    exact (h.same pattern).onRoster _

theorem hotLoad (h : b.ExceptMatch user c) (code : Text) :
    (b.hotLoad code).2.ExceptMatch user (c.hotLoad code).2 where
  known := by
    rw [roster_hotLoad, roster_hotLoad]
    exact h.known
  same pattern := by
    have hload := (h.same pattern).hotLoad code
    rwa [hotLoad_onRoster, hotLoad_onRoster] at hload

end ExceptMatch

theorem unread_exceptMatch (user : Text) : Unread user (ExceptMatch user) where
  setback h := setbackResult_congr (h.same []).settings
  alike h := h.alike
  setUserVar h _ _ := h.alter fun _ _ => rfl
  setLastMatch h pattern := ((h.same pattern).exceptMatch user)
  setVar h name value := ⟨h.known, fun pattern => (h.same pattern).setVar name value⟩
  setGlobal h name value := ⟨h.known, fun pattern => (h.same pattern).setGlobal name value⟩
  hotLoad h := h.hotLoad

theorem unread_sameLive (user : Text) : Unread user SameLive := (unseen_sameLive user).unread

end Bot

theorem Agree.exceptMatch {a : Asking} {user : Text} {p : Process} {x y : Except Fault Text × Process}
    (h : Agree (Bot.ExceptMatch user) Bot.SameLive a p x y) : x.2.bot.ExceptMatch user y.2.bot :=
  h.process.elim (fun hlive => hlive.bot.exceptMatch user) fun hearly => hearly.1.bot

end Dialogue
