import Dialogue.Proofs.Rules

/-! What a reply can change: a few values of the bot and its user, and the record of the steps.
Everything else goes through answers one deeper. -/
namespace Dialogue

open Answering

/-- The relation admits whatever markup changes for a user. -/
structure AdmitsMarkup (user : Text) (R : Process → Process → Prop) : Prop
    extends Composes R where
  draw : ∀ p draws, R p { p with draws := draws }
  setVar : ∀ p name value, R p { p with bot := p.bot.onRoster (·.setVar user name value) }
  setBotVar : ∀ p name value, R p { p with bot := p.bot.setVar name value }
  setGlobal : ∀ p name value, R p { p with bot := p.bot.setGlobal name value }
  hotLoad : ∀ p code, R p { p with bot := (p.bot.hotLoad code).2 }

/-- The relation admits whatever else is changed while a message is matched in an open step. -/
structure AdmitsStep (a : Asking) (step : Nat) (R : Process → Process → Prop) : Prop
    extends AdmitsMarkup a.user R where
  setLastMatch : ∀ p pattern,
    R p { p with bot := p.bot.onRoster (·.setLastMatch a.user pattern) }
  countTried : ∀ p n, R p
    { p with
      tried := p.tried + n
      steps := p.steps.modify step fun s => { s with tried := s.tried + n } }
  record : ∀ p found, Selected a found → R p
    { p with
      steps := p.steps.modify step fun s =>
        { s with matched := some found.rule.pattern, viaPrevious := found.viaPrevious } }

/-- For each depth and each number of steps that are closed, a relation that admits what is done
from there on. -/
structure AdmitsRun (a : Asking) (R : Nat → Nat → Process → Process → Prop) : Prop where
  step : ∀ depth closed, AdmitsStep a closed (R depth closed)
  openStep : ∀ {depth closed p q s}, s.depth = depth → s.matched = none →
    depth ≤ a.playbook.depth → R (depth + 1) p.steps.length { p with steps := p.steps ++ [s] } q →
      R depth closed p q
  lower : ∀ {closed p q}, R 1 closed p q → R 0 closed p q

theorem AdmitsRun.rules {a : Asking} {R : Nat → Nat → Process → Process → Prop}
    (h : AdmitsRun a R) : Rules a (fun _ => True) fun depth closed _ x => Moves (R depth closed) x where
  pure _ := moves_pure (h.step _ _).toComposes _
  bind hx hf := moves_bind (h.step _ _).toComposes hx hf
  look _ hf := moves_bind (h.step _ _).toComposes (moves_bot (h.step _ _).toComposes)
    fun b _ => hf b trivial
  draw chances p := by
    rw [run_draw]
    exact (h.step _ _).draw p _
  setback kind := moves_setback (h.step _ _).toComposes kind
  setVar _ _ p := (h.step _ _).setVar p _ _
  setBotVar _ _ p := (h.step _ _).setBotVar p _ _
  setGlobal _ _ p := (h.step _ _).setGlobal p _ _
  hotLoad code p := (h.step _ _).hotLoad p code
  setLastMatch _ p := (h.step _ _).setLastMatch p _
  previous _ _ _ := moves_except (h.step _ _).toComposes _
  trigger _ _ _ := moves_except (h.step _ _).toComposes _
  countTried _ p := (h.step _ _).countTried p _
  record found hfound p := (h.step _ _).record p found hfound
  openStep hs hm hle hf p := h.openStep hs hm hle (hf p.steps.length _)
  lower hx p := h.lower (hx p)

/-- Markup that comes to no fault. -/
theorem AdmitsMarkup.leaves {a : Asking} {R : Process → Process → Prop} (h : AdmitsMarkup a.user R) :
    MarkupRules a (fun _ => True) fun x => Leaves R x where
  pure v := (moves_pure h.toComposes v).leaves
  bind hx hf := leaves_bind h.toComposes hx hf
  look _ hf := leaves_bind h.toComposes (moves_bot h.toComposes).leaves fun b _ => hf b trivial
  draw chances := Moves.leaves fun p => by
    rw [run_draw]
    exact h.draw p _
  setback kind := (moves_setback h.toComposes kind).leaves
  setVar name value := Moves.leaves fun p => h.setVar p name value
  setBotVar name value := Moves.leaves fun p => h.setBotVar p name value
  setGlobal name value := Moves.leaves fun p => h.setGlobal p name value
  hotLoad code := Moves.leaves fun p => h.hotLoad p code

namespace Answer

theorem moves_answer {a : Asking} {R : Nat → Nat → Process → Process → Prop} (h : AdmitsRun a R)
    (message : Text) : Moves (R 0 0) (answer a message) := h.rules.answer message

end Answer

namespace Bot

variable {b : Bot} {p : Playbook} {draws : List Nat} {user message : Text}

/-- The run that ends in an answer to the user's message. -/
def answered (b : Bot) (p : Playbook) (draws : List Nat) (user message : Text) :
    Except Fault Text × Process :=
  (Answer.answer ⟨user, p⟩ (p.canon.format false message)).run.run
    { bot := b.onRoster (·.welcome user), draws }

def exchange (p : Playbook) (message reply : Text) (q : Process) : Exchange where
  reply := reply
  message := p.canon.format false message
  began := p.topics.has Topic.begin
  steps := q.steps
  tried := q.tried

def told (o : Outcome) : Option Text := o.result.toOption.map Exchange.reply

theorem reply_of_text (hp : b.playbook = some p) {reply : Text} {q : Process}
    (h : b.answered p draws user message = (.ok reply, q)) : b.reply draws user message =
      { result := .ok (exchange p message reply q)
        bot := q.bot.onRoster (·.record user (p.canon.format false message) reply) } := by
  rw [answered] at h
  simp only [Bot.reply, hp, h, exchange]

theorem reply_of_fault (hp : b.playbook = some p) {fault : Fault} {q : Process}
    (h : b.answered p draws user message = (.error fault, q)) :
    b.reply draws user message = { result := .error fault, bot := q.bot } := by
  rw [answered] at h
  simp only [Bot.reply, hp, h]

theorem answered_of_ok (hp : b.playbook = some p) {e : Exchange}
    (h : (b.reply draws user message).result = .ok e) :
    ∃ reply q, b.answered p draws user message = (.ok reply, q) ∧ e = exchange p message reply q := by
  rcases hr : b.answered p draws user message with ⟨result, q⟩
  cases result with
  | error fault =>
    rw [reply_of_fault hp hr] at h
    cases h
  | ok reply =>
    rw [reply_of_text hp hr] at h
    cases h
    exact ⟨reply, q, rfl, rfl⟩

theorem answered_of_error (hp : b.playbook = some p) {fault : Fault}
    (h : (b.reply draws user message).result = .error fault) :
    ∃ q, b.answered p draws user message = (.error fault, q) := by
  rcases hr : b.answered p draws user message with ⟨result, q⟩
  cases result with
  | error fault' =>
    rw [reply_of_fault hp hr] at h
    cases h
    exact ⟨q, rfl⟩
  | ok reply =>
    rw [reply_of_text hp hr] at h
    cases h

/-- The relation of bots admits whatever a reply to a user does, the record of it included. -/
structure Admits (user : Text) (R : Bot → Bot → Prop) : Prop where
  refl : ∀ b, R b b
  trans : ∀ {b c d}, R b c → R c d → R b d
  alter : ∀ b f, R b (b.onRoster (·.alter user f))
  setVar : ∀ b name value, R b (b.setVar name value)
  setGlobal : ∀ b name value, R b (b.setGlobal name value)
  hotLoad : ∀ b code, R b (b.hotLoad code).2

theorem Admits.admitsRun {R : Bot → Bot → Prop} (h : Admits user R) (p : Playbook) :
    AdmitsRun ⟨user, p⟩ fun _ _ q r => R q.bot r.bot where
  step _ _ :=
    { refl := fun q => h.refl q.bot
      trans := h.trans
      draw := fun q _ => h.refl q.bot
      setVar := fun q _ _ => h.alter q.bot _
      setBotVar := fun q => h.setVar q.bot
      setGlobal := fun q => h.setGlobal q.bot
      hotLoad := fun q => h.hotLoad q.bot
      setLastMatch := fun q _ => h.alter q.bot _
      countTried := fun q _ => h.refl q.bot
      record := fun q _ _ => h.refl q.bot }
  openStep := fun _ _ _ hr => hr
  lower := fun hr => hr

theorem Admits.reply {R : Bot → Bot → Prop} (h : Admits user R) (b : Bot) (draws : List Nat)
    (message : Text) : R b (b.reply draws user message).bot := by
  cases hp : b.playbook with
  | none =>
    rw [Bot.reply, hp]
    exact h.refl b
  | some p =>
    have hanswer := Answer.moves_answer (h.admitsRun p) (p.canon.format false message)
      { bot := b.onRoster (·.welcome user), draws }
    have hrun : R b (b.answered p draws user message).2.bot := h.trans (h.alter b id) hanswer
    rcases hr : b.answered p draws user message with ⟨result, q⟩
    rw [hr] at hrun
    cases result with
    | error fault =>
      rw [reply_of_fault hp hr]
      exact hrun
    | ok text =>
      rw [reply_of_text hp hr]
      exact h.trans hrun (h.alter q.bot _)

end Bot

end Dialogue
