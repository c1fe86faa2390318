import Dialogue.Reply.Process

/-! What becomes of the process of a reply. A relation between the process before and after holds
of a whole reply as soon as it holds of the few changes that a reply is made of. -/
namespace Dialogue.Answering

variable {α β : Type}

theorem run_bind (x : Answering α) (f : α → Answering β) (p : Process) :
    (x >>= f).run.run p = match x.run.run p with
      | (.ok a, q) => (f a).run.run q
      | (.error fault, q) => (.error fault, q) := by
  rw [ExceptT.run_bind, StateT.run_bind]
  cases x.run.run p with
  | mk result q => cases result <;> rfl

theorem run_bot (f : Bot → Answering α) (p : Process) :
    (bot >>= f).run.run p = (f p.bot).run.run p := rfl

theorem run_openStep (s : Step) (f : Nat → Answering α) (p : Process) :
    (openStep s >>= f).run.run p = (f p.steps.length).run.run { p with steps := p.steps ++ [s] } :=
  rfl

theorem ok_of_toOption {α : Type} {result : Except Fault α} {v : α}
    (h : result.toOption = some v) : result = .ok v := by
  cases result with
  | error fault => cases h
  | ok w => exact congrArg Except.ok (Option.some.inj h)

theorem ok_of_bind {x : Except Fault α} {f : α → Except Fault β} {w : β}
    (h : x >>= f = .ok w) : ∃ v, x = .ok v ∧ f v = .ok w := by
  cases x with
  | error fault => cases h
  | ok v => exact ⟨v, rfl, h⟩

theorem ok_of_map {ε : Type} {x : Except ε α} {f : α → β} {w : β} (h : x.map f = .ok w) :
    ∃ v, x = .ok v ∧ w = f v := by
  cases x with
  | error _ => cases h
  | ok v => exact ⟨v, rfl, (Except.ok.inj h).symm⟩

theorem error_of_map {ε : Type} {x : Except ε α} {f : α → β} {fault : ε} (h : x.map f = .error fault) :
    x = .error fault := by
  cases x with
  | error _ =>
    cases h
    rfl
  | ok _ => cases h

def setbackResult (b : Bot) (kind : Setback) : Except Fault Text :=
  let text := b.settings.wording.text kind
  if b.settings.throws then .error (.setback kind text) else .ok text

theorem setbackResult_congr {b c : Bot} (h : b.settings = c.settings) (kind : Setback) :
    setbackResult b kind = setbackResult c kind := by
  rw [setbackResult, setbackResult, h]

theorem run_setback (kind : Setback) (p : Process) :
    (setback kind).run.run p = (setbackResult p.bot kind, p) := by
  show (ite _ (throw _) (pure _) : Answering Text).run.run p = _
  rw [setbackResult]
  split <;> rfl

def drawn (chances : List Nat) : List Nat → Nat
  | [] => Lot.usual chances
  | d :: _ => d % Lot.total chances

theorem run_draw (chances : List Nat) (p : Process) : (draw chances).run.run p =
    (.ok (drawn chances p.draws), { p with draws := p.draws.tail }) := by
  obtain ⟨b, steps, tried, draws⟩ := p
  cases draws <;> rfl

def Yields (x : Answering α) (v : α) : Prop := ∃ p q, x.run.run p = (.ok v, q)

theorem yields_pure {v w : α} (h : Yields (pure v : Answering α) w) : v = w := by
  obtain ⟨p, q, h⟩ := h
  cases h
  rfl

theorem ok_of_run {x : Answering α} {f : α → Answering β} {p r : Process} {w : β}
    (h : (x >>= f).run.run p = (.ok w, r)) :
    ∃ v q, x.run.run p = (.ok v, q) ∧ (f v).run.run q = (.ok w, r) := by
  rw [run_bind] at h
  rcases hx : x.run.run p with ⟨result, q⟩
  rw [hx] at h
  cases result with
  | error fault => cases h
  | ok v => exact ⟨v, q, rfl, h⟩

theorem yields_bind {x : Answering α} {f : α → Answering β} {w : β} (h : Yields (x >>= f) w) :
    ∃ v, Yields x v ∧ Yields (f v) w := by
  obtain ⟨p, r, h⟩ := h
  obtain ⟨v, q, hx, hf⟩ := ok_of_run h
  exact ⟨v, ⟨p, q, hx⟩, ⟨q, r, hf⟩⟩

theorem yields_except {e : Except Fault α} {v : α} (h : Yields (liftM e : Answering α) v) :
    e = .ok v := by
  obtain ⟨p, q, h⟩ := h
  cases e <;> cases h
  rfl

/-- Whatever an answer is, and even if it is a fault, the process after it is related to the one
before. -/
def Moves (R : Process → Process → Prop) (x : Answering α) : Prop := ∀ p, R p (x.run.run p).2

/-- Doing nothing and doing one thing after another keeps to the relation. -/
structure Composes (R : Process → Process → Prop) : Prop where
  refl : ∀ p, R p p
  trans : ∀ {p q r}, R p q → R q r → R p r

variable {R : Process → Process → Prop} {x : Answering α} {f : α → Answering β}

theorem moves_pure (h : Composes R) (a : α) : Moves R (pure a : Answering α) := h.refl

theorem moves_bot (h : Composes R) : Moves R bot := h.refl

theorem moves_except (h : Composes R) (e : Except Fault α) : Moves R (liftM e : Answering α) := by
  intro p
  cases e <;> exact h.refl p

theorem moves_setback (h : Composes R) (kind : Setback) : Moves R (setback kind) := by
  intro p
  rw [run_setback]
  exact h.refl p

theorem moves_bind (h : Composes R) (hx : Moves R x) (hf : ∀ a, Yields x a → Moves R (f a)) :
    Moves R (x >>= f) := by
  intro p
  have hp := hx p
  rw [run_bind]
  rcases hr : x.run.run p with ⟨result, q⟩
  rw [hr] at hp
  cases result with
  | error fault => exact hp
  | ok a => exact h.trans hp (hf a ⟨p, q, hr⟩ q)

/-- As `Moves`, but nothing is said of what comes to a fault. -/
def Leaves (R : Process → Process → Prop) (x : Answering α) : Prop :=
  ∀ ⦃p v q⦄, x.run.run p = (.ok v, q) → R p q

theorem Moves.leaves (h : Moves R x) : Leaves R x := by
  intro p v q hrun
  have hp := h p
  rwa [hrun] at hp

theorem leaves_bind (h : Composes R) (hx : Leaves R x) (hf : ∀ a, Yields x a → Leaves R (f a)) :
    Leaves R (x >>= f) := by
  intro p w r hrun
  obtain ⟨v, q, hxrun, hfrun⟩ := ok_of_run hrun
  exact h.trans (hx hxrun) (hf v ⟨p, q, hxrun⟩ hfrun)

end Dialogue.Answering
