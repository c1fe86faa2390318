import Dialogue.Proofs.Reply

/-! Two replies side by side. Bots whose differences no reply to a user can see answer that user in the
same way, and what was different before is still all that is. -/
namespace Dialogue

open Answering

/-- All of a profile that replies look at. -/
def Profile.seen (p : Profile) : Table Text × History := (p.vars, p.history)

/-- Bots look alike to a user if they share what is said to everybody and know the user equally. -/
theorem Bot.alike_of {b c : Bot} {user : Text} (settings : b.settings = c.settings)
    (vars : b.vars = c.vars) (globals : b.globals = c.globals)
    (callables : b.callables = c.callables)
    (profile : (b.roster.profile? user).map Profile.seen = (c.roster.profile? user).map Profile.seen)
    (p : Playbook) : Bot.Alike ⟨user, p⟩ b c := by
  have hhistory : ∀ r : Roster, r.history user =
      (((r.profile? user).map Profile.seen).map Prod.snd).getD {} := by
    intro r
    rw [Roster.history, Option.map_map]
    rfl
  have hvar : ∀ (r : Roster) name, r.var? user name =
      ((r.profile? user).map Profile.seen).bind (·.1.find? name) := by
    intro r name
    rw [Roster.var?, Option.bind_map]
    rfl
  have hsurroundings : Selection.surroundings b p user = Selection.surroundings c p user := by
    have hseen := congrArg (·.getD (Profile.seen {})) profile
    simp only [Option.getD_map] at hseen
    obtain ⟨hvars, hhistory⟩ := Prod.mk.inj hseen
    rw [Selection.surroundings, Selection.surroundings, vars, settings, hvars, hhistory]
  constructor
  · rw [hhistory, profile, hhistory]
  · intro name
    rw [hvar, profile, hvar]
  · intro name
    rw [vars]
  · intro name
    rw [globals]
  · rw [settings]
  · intro name args
    rw [callables]
  · intro topic message
    rw [Selection.matchPrevious, Selection.matchPrevious, hsurroundings, settings]
  · intro topic message
    rw [Selection.matchTrigger, Selection.matchTrigger, hsurroundings, settings]

/-- A relation of bots that replies to the user do not look behind, and that whatever they do keeps. -/
structure Bot.Unseen (user : Text) (R : Bot → Bot → Prop) : Prop where
  setback : ∀ {b c}, R b c → ∀ kind, setbackResult b kind = setbackResult c kind
  alike : ∀ {b c}, R b c → ∀ p, Bot.Alike ⟨user, p⟩ b c
  alter : ∀ {b c}, R b c → ∀ f, R (b.onRoster (·.alter user f)) (c.onRoster (·.alter user f))
  setVar : ∀ {b c}, R b c → ∀ name value, R (b.setVar name value) (c.setVar name value)
  setGlobal : ∀ {b c}, R b c → ∀ name value, R (b.setGlobal name value) (c.setGlobal name value)
  hotLoad : ∀ {b c}, R b c → ∀ code, R (b.hotLoad code).2 (c.hotLoad code).2

/-- What has to be shown of a relation of answers so that it holds of responses that are found alike. -/
structure PairRules (P : {α : Type} → Answering α → Answering α → Prop) : Prop where
  pure : ∀ {α : Type} (v : α), P (pure v : Answering α) (Pure.pure v)
  bind : ∀ {α β : Type} {x y : Answering α} {f g : α → Answering β}, P x y →
    (∀ v, P (f v) (g v)) → P (x >>= f) (y >>= g)
  draw : ∀ chances, P (draw chances) (draw chances)

namespace PairRules

variable {P : {α : Type} → Answering α → Answering α → Prop}

theorem firstCondition (h : PairRules P) {carryOut carryOut' : Text → Answering Text}
    (hcarryOut : ∀ t, P (carryOut t) (carryOut' t)) (lines : List Text) :
    P (Answer.firstCondition carryOut lines) (Answer.firstCondition carryOut' lines) := by
  induction lines with
  | nil => exact h.pure none
  | cons line lines ih =>
    unfold Answer.firstCondition
    split
    · exact ih
    · refine h.bind (hcarryOut _) fun left => h.bind (hcarryOut _) fun right => ?_
      split
      · exact h.pure _
      · exact ih

theorem drawResponse (h : PairRules P) (r : Rule) :
    P (Answer.drawResponse r) (Answer.drawResponse r) := by
  unfold Answer.drawResponse
  split
  · exact h.pure _
  · exact h.bind (h.draw _) fun n => h.pure _

theorem speak (h : PairRules P) {carryOut carryOut' redirect redirect' : Text → Answering Text}
    (hcarryOut : ∀ t, P (carryOut t) (carryOut' t))
    (hredirect : ∀ t, P (redirect t) (redirect' t)) (r : Rule) :
    P (Answer.speak carryOut redirect r) (Answer.speak carryOut' redirect' r) := by
  refine h.bind (h.firstCondition hcarryOut _) fun response => ?_
  cases response with
  | some response => exact h.pure _
  | none =>
    refine h.bind (h.drawResponse r) fun response => ?_
    cases response with
    | reply text => exact h.pure _
    | redirect target => exact h.bind (hcarryOut _) fun target => hredirect _

end PairRules

structure Process.Paired (R : Bot → Bot → Prop) (p q : Process) : Prop where
  bot : R p.bot q.bot
  steps : p.steps = q.steps
  tried : p.tried = q.tried
  draws : p.draws = q.draws

namespace Answering

variable {α β : Type} {R : Bot → Bot → Prop}

/-- The answer is the same for related bots, and they stay related. -/
def Pairs (R : Bot → Bot → Prop) (x : Answering α) : Prop := ∀ p q, p.Paired R q →
  (x.run.run p).1 = (x.run.run q).1 ∧ (x.run.run p).2.Paired R (x.run.run q).2

theorem pairs_bind {x : Answering α} {f : α → Answering β} (hx : Pairs R x)
    (hf : ∀ v, Yields x v → Pairs R (f v)) : Pairs R (x >>= f) := by
  intro p q hpq
  obtain ⟨hresult, hpaired⟩ := hx p q hpq
  rw [run_bind, run_bind]
  rcases hp : x.run.run p with ⟨result, p'⟩
  rcases hq : x.run.run q with ⟨result', q'⟩
  rw [hp, hq] at hresult hpaired
  obtain rfl : result = result' := hresult
  cases result with
  | error fault => exact ⟨rfl, hpaired⟩
  | ok v => exact hf v ⟨p, p', hp⟩ p' q' hpaired

theorem pairs_changeBot {g : Bot → Bot} (hg : ∀ b c, R b c → R (g b) (g c)) :
    Pairs R (changeBot g) :=
  fun _ _ h => ⟨rfl, { h with bot := hg _ _ h.bot }⟩

theorem pairs_onStep (position : Nat) (g : Step → Step) : Pairs R (onStep position g) :=
  fun _ _ h => ⟨rfl, { h with steps := congrArg (·.modify position g) h.steps }⟩

theorem pairs_except (e : Except Fault α) : Pairs R (liftM e : Answering α) := by
  intro p q h
  cases e <;> exact ⟨rfl, h⟩

theorem pairs_draw (chances : List Nat) : Pairs R (draw chances) := by
  intro p q h
  rw [run_draw, run_draw, h.draws]
  exact ⟨rfl, { h with draws := rfl }⟩

theorem pairs_countTried (position n : Nat) : Pairs R (countTried position n) :=
  fun _ _ h => ⟨rfl, { h with
    tried := congrArg (· + n) h.tried
    steps := congrArg (·.modify position fun s => { s with tried := s.tried + n }) h.steps }⟩

theorem pairs_openStep (s : Step) : Pairs R (openStep s) :=
  fun _ _ h => ⟨congrArg (fun steps : List Step => Except.ok steps.length) h.steps,
    { h with steps := congrArg (· ++ [s]) h.steps }⟩

theorem pairs_setback (hR : ∀ {b c}, R b c → ∀ kind, setbackResult b kind = setbackResult c kind)
    (kind : Setback) : Pairs R (setback kind) := by
  intro p q h
  rw [run_setback, run_setback, hR h.bot]
  exact ⟨rfl, h⟩

theorem rules_pairs {a : Asking} (hR : Bot.Unseen a.user R) :
    Rules a (fun _ => True) fun _ _ _ x => Pairs R x where
  pure _ _ _ h := ⟨rfl, h⟩
  bind := pairs_bind
  look halike hf p q h := by
    have hrun := hf p.bot trivial p q h
    rw [run_bot, run_bot, ← halike p.bot q.bot (hR.alike h.bot a.playbook)]
    exact hrun
  draw := pairs_draw
  setback := pairs_setback hR.setback
  setVar _ _ := pairs_changeBot fun _ _ h => hR.alter h _
  setBotVar name value := pairs_changeBot fun _ _ h => hR.setVar h name value
  setGlobal name value := pairs_changeBot fun _ _ h => hR.setGlobal h name value
  hotLoad code _ _ h := ⟨rfl, { h with bot := hR.hotLoad h.bot code }⟩
  setLastMatch _ := pairs_changeBot fun _ _ h => hR.alter h _
  previous _ _ _ := pairs_except _
  trigger _ _ _ := pairs_except _
  countTried n := pairs_countTried _ n
  record _ _ := pairs_onStep _ _
  openStep _ _ _ hf := pairs_bind (pairs_openStep _) fun step _ => hf step
  lower h := h

end Answering

namespace Bot

/-- A bot that was never sorted has nothing to say. -/
theorem reply_unsorted {b : Bot} (h : b.playbook = none) (draws : List Nat) (user message : Text) :
    b.reply draws user message =
      ⟨(setbackResult b .notSorted).map fun text => { reply := text }, b⟩ := by
  rw [reply, h, setbackResult]
  cases b.settings.throws <;> rfl

/-- Related bots that have one playbook. -/
theorem Unseen.reply {R : Bot → Bot → Prop} {user : Text} (hR : Unseen user R) {b c : Bot}
    (h : R b c) (hp : b.playbook = c.playbook) (draws : List Nat) (message : Text) :
    (b.reply draws user message).result = (c.reply draws user message).result ∧
      R (b.reply draws user message).bot (c.reply draws user message).bot := by
  cases hb : b.playbook with
  | none =>
    rw [reply_unsorted hb, reply_unsorted (hp ▸ hb), hR.setback h]
    exact ⟨rfl, h⟩
  | some p =>
    have hc : c.playbook = some p := hp ▸ hb
    have hrules : Rules ⟨user, p⟩ (fun _ => True) fun _ _ _ x => Pairs R x := rules_pairs hR
    have hanswer := hrules.answer (k := 0) (p.canon.format false message)
      { bot := b.onRoster (·.welcome user), draws } { bot := c.onRoster (·.welcome user), draws }
      ⟨hR.alter h id, rfl, rfl, rfl⟩
    rcases hbrun : b.answered p draws user message with ⟨result, q⟩
    rcases hcrun : c.answered p draws user message with ⟨result', q'⟩
    rw [answered] at hbrun hcrun
    rw [hbrun, hcrun] at hanswer
    obtain ⟨hresult, hpaired⟩ := hanswer
    obtain rfl : result = result' := hresult
    cases result with
    | error fault =>
      rw [reply_of_fault hb hbrun, reply_of_fault hc hcrun]
      exact ⟨rfl, hpaired.bot⟩
    | ok text =>
      rw [reply_of_text hb hbrun, reply_of_text hc hcrun]
      refine ⟨?_, hR.alter hpaired.bot _⟩
      rw [exchange, exchange, hpaired.steps, hpaired.tried]

end Bot

end Dialogue
