import Dialogue.Proofs.Process
import Dialogue.Reply.Answer

/-! Rules for properties of answers. What holds of the few primitive parts of a reply, and of
everything put together from parts of which it holds, holds of the whole reply. -/
namespace Dialogue

open Answering

/-- The bots look the same to whoever finds an answer with them. -/
structure Bot.Alike (a : Asking) (b c : Bot) : Prop where
  history : b.roster.history a.user = c.roster.history a.user
  var : ∀ name, b.roster.var? a.user name = c.roster.var? a.user name
  botVar : ∀ name, b.vars.find? name = c.vars.find? name
  global : ∀ name, b.globals.find? name = c.globals.find? name
  wording : b.settings.wording = c.settings.wording
  call : ∀ name args, b.callables.call? name a.user args = c.callables.call? name a.user args
  previous : ∀ topic message, Selection.matchPrevious b a.playbook a.user topic message =
    Selection.matchPrevious c a.playbook a.user topic message
  trigger : ∀ topic message, Selection.matchTrigger b a.playbook a.user topic message =
    Selection.matchTrigger c a.playbook a.user topic message

def Selected (a : Asking) (found : Match) : Prop :=
  ∃ b topic message tried,
    Selection.matchPrevious b a.playbook a.user topic message = .ok (some found, tried) ∨
      Selection.matchTrigger b a.playbook a.user topic message = .ok (some found, tried)

theorem yields_tryOut {step : Nat} {result : Except Fault (Option Match × Nat)}
    {found : Option Match} (h : Yields (Answer.tryOut step result) found) :
    ∃ tried, result = .ok (found, tried) := by
  obtain ⟨⟨m, tried⟩, hresult, h⟩ := yields_bind h
  obtain ⟨-, -, h⟩ := yields_bind h
  obtain rfl := yields_pure h
  exact ⟨tried, yields_except hresult⟩

/-- What has to be shown of a property so that it holds of all that is done with markup, which opens
no step and looks for no rule. -/
structure MarkupRules (a : Asking) (Known : Bot → Prop)
    (P : {α : Type} → Answering α → Prop) : Prop where
  pure : ∀ {α : Type} (v : α), P (pure v : Answering α)
  bind : ∀ {α β : Type} {x : Answering α} {f : α → Answering β}, P x →
    (∀ v, Yields x v → P (f v)) → P (x >>= f)
  look : ∀ {α : Type} {f : Bot → Answering α}, (∀ b c, Bot.Alike a b c → f b = f c) →
    (∀ b, Known b → P (f b)) → P (bot >>= f)
  draw : ∀ chances, P (draw chances)
  setback : ∀ kind, P (setback kind)
  setVar : ∀ name value, P (onRoster (·.setVar a.user name value))
  setBotVar : ∀ name value, P (changeBot (·.setVar name value))
  setGlobal : ∀ name value, P (changeBot (·.setGlobal name value))
  hotLoad : ∀ code, P (Expansion.hotLoad code)

namespace MarkupRules

variable {a : Asking} {Known : Bot → Prop} {P : {α : Type} → Answering α → Prop}

theorem math (h : MarkupRules a Known P) (op : Variable.Operation) (data : Text) :
    P (Variable.math a.user op data) := by
  unfold Variable.math
  split
  · exact h.pure _
  · rename_i name value _
    apply h.look
    · intro b c hbc
      rw [hbc.var, hbc.wording]
    · intro b _
      split
      · exact h.pure _
      · exact h.bind (h.setVar _ _) fun _ _ => h.pure _

theorem botVariable (h : MarkupRules a Known P) {table : Bot → Table Text}
    {set : Text → Option Text → Bot → Bot}
    (htable : ∀ b c, Bot.Alike a b c → ∀ name, (table b).find? name = (table c).find? name)
    (hset : ∀ name value, P (changeBot (set name value))) (data : Text) :
    P (Variable.botVariable table set data) := by
  unfold Variable.botVariable
  split
  · exact h.bind (hset _ _) fun _ _ => h.pure _
  · apply h.look
    · intro b c hbc
      rw [htable b c hbc]
    · intro b _
      exact h.pure _

theorem tag (h : MarkupRules a Known P) (other : Text → Text) (body : Text) :
    P (Variable.tag a.user other body) := by
  unfold Variable.tag
  split
  repeat' split
  · exact h.botVariable (fun _ _ hbc => hbc.botVar) h.setBotVar _
  · exact h.botVariable (fun _ _ hbc => hbc.global) h.setGlobal _
  · exact h.bind (h.setVar _ _) fun _ _ => h.pure _
  · exact h.pure ([] : Text)
  · apply h.look
    · intro b c hbc
      rw [hbc.var]
    · intro b _
      exact h.pure _
  · exact h.math _ _
  · exact h.pure _

theorem editEach (h : MarkupRules a Known P) {α : Type} (read : Reader α) {f : α → Answering Text}
    (hf : ∀ v, P (f v)) (limit : Nat) (t : Text) :
    P (Expansion.editEach read f limit t) := by
  induction limit generalizing t with
  | zero => exact h.pure _
  | succ limit ih =>
    unfold Expansion.editEach
    split
    · exact h.pure _
    · exact h.bind (hf _) fun new _ => ih _

theorem replaceAll (h : MarkupRules a Known P) {α : Type} (read : Reader α) {f : α → Answering Text}
    (hf : ∀ v, P (f v)) (skip : Nat) (t : Text) :
    P (Expansion.replaceAll read f skip t) := by
  induction t generalizing skip with
  | nil => exact h.pure _
  | cons c t ih =>
    cases skip with
    | succ skip => exact ih skip
    | zero =>
      unfold Expansion.replaceAll
      split
      · exact h.bind (hf _) fun new _ => h.bind (ih _) fun after _ => h.pure _
      · exact h.bind (ih 0) fun after _ => h.pure _

theorem formatBlocks (h : MarkupRules a Known P) (person : Substitution) (limit : Nat)
    (blocks : List Markup.Block) (t : Text) :
    P (Expansion.formatBlocks person limit blocks t) := by
  induction blocks generalizing t with
  | nil => exact h.pure _
  | cons block blocks ih =>
    exact h.bind (h.editEach _ (fun body => h.pure _) limit t) fun t _ => ih t

theorem pick (h : MarkupRules a Known P) (body : Text) : P (Expansion.pick body) :=
  h.bind (h.draw _) fun _ _ => h.pure _

theorem enterTopic (h : MarkupRules a Known P) (name : Text) :
    P (Expansion.enterTopic a.user name) :=
  h.bind (h.setVar _ _) fun _ _ => h.pure _

theorem callObject (h : MarkupRules a Known P) (body : Text) :
    P (Expansion.callObject a.user body) := by
  apply h.look
  · intro b c hbc
    simp only [hbc.call, hbc.wording]
  · intro b _
    exact h.pure _

theorem carryOutTags (h : MarkupRules a Known P) (t : Text) :
    P (Expansion.carryOutTags a.user t) :=
  h.bind (h.editEach _ (fun body => h.tag _ body) _ _) fun _ _ => h.pure _

theorem expandBegin (h : MarkupRules a Known P) (t : Text) : P (Expansion.expandBegin a.user t) := by
  refine h.bind (h.replaceAll _ (fun v => ?_) 0 t) fun t _ => ?_
  · obtain ⟨name, value⟩ := v
    exact h.bind (h.setVar _ _) fun _ _ => h.pure _
  · exact h.replaceAll _ h.enterTopic 0 t

/-- Carrying out markup asks for nothing but answers one deeper than the message. -/
theorem expand (h : MarkupRules a Known P) {call : Answerer} {turn : Turn}
    (hcall : ∀ message, P (call (turn.depth + 1) false message)) (t : Text) :
    P (Expansion.expand a call turn t) := by
  unfold Expansion.expand
  apply h.look
  · intro b c hbc
    rw [hbc.history]
  · intro b _
    refine h.bind (h.editEach _ h.pick _ _) fun t _ => ?_
    refine h.bind (h.editEach _ h.hotLoad _ _) fun t _ => ?_
    refine h.bind (h.formatBlocks _ _ _ _) fun t _ => ?_
    refine h.bind (h.carryOutTags _) fun t _ => ?_
    refine h.bind (h.editEach _ h.enterTopic _ _) fun t _ => ?_
    refine h.bind (h.editEach _ (fun target => hcall _) _ _) fun t _ => ?_
    exact h.editEach _ h.callObject _ _

theorem currentTopic (h : MarkupRules a Known P) (begin : Bool) :
    P (Answer.currentTopic a begin) := by
  unfold Answer.currentTopic
  by_cases hb : begin = true
  · simp only [hb, if_true]
    exact h.pure _
  · simp only [hb]
    apply h.look
    · intro b c hbc
      rw [hbc.var]
    · intro b _
      split
      · exact h.pure _
      · exact h.bind (h.setVar _ _) fun _ _ => h.pure _

theorem firstCondition (h : MarkupRules a Known P) {expand : Text → Answering Text}
    (hexpand : ∀ t, P (expand t)) (lines : List Text) :
    P (Answer.firstCondition expand lines) := by
  induction lines with
  | nil => exact h.pure _
  | cons line lines ih =>
    unfold Answer.firstCondition
    split
    · exact ih
    · refine h.bind (hexpand _) fun left _ => h.bind (hexpand _) fun right _ => ?_
      split
      · exact h.pure _
      · exact ih

theorem drawResponse (h : MarkupRules a Known P) (r : Rule) : P (Answer.drawResponse r) := by
  unfold Answer.drawResponse
  split
  · exact h.pure _
  · exact h.bind (h.draw _) fun n _ => h.pure _

theorem speak (h : MarkupRules a Known P) {expand redirect : Text → Answering Text}
    (hexpand : ∀ t, P (expand t)) (hredirect : ∀ t, P (redirect t)) (r : Rule) :
    P (Answer.speak expand redirect r) := by
  refine h.bind (h.firstCondition hexpand _) fun response _ => ?_
  split
  · exact h.pure _
  · refine h.bind (h.drawResponse r) fun response _ => ?_
    split
    · exact h.pure _
    · exact h.bind (hexpand _) fun target _ => hredirect _

theorem conclude (h : MarkupRules a Known P) {call : Answerer} {turn : Turn} {begin : Bool}
    (hcall : ∀ begin message, P (call (turn.depth + 1) begin message))
    (found : Match) : P (do
      let text ← Answer.speak (Expansion.expand a call turn) (call (turn.depth + 1) begin) found.rule
      if text = [] then Answering.setback .noReply
      else if begin then Expansion.expandBegin a.user text
      else Expansion.expand a call turn text) := by
  have hexpand : ∀ t, P (Expansion.expand a call turn t) := h.expand (hcall false)
  refine h.bind (h.speak hexpand (hcall begin) _) fun text _ => ?_
  split
  · exact h.setback _
  · split
    · exact h.expandBegin _
    · exact hexpand _

end MarkupRules

/-- What has to be shown of a property so that it holds of all answers. It may depend on the
depth of the next step and on the position of the step that is open. -/
structure Rules (a : Asking) (Known : Bot → Prop)
    (P : Nat → Nat → {α : Type} → Answering α → Prop) : Prop where
  pure : ∀ {d k} {α : Type} (v : α), P d k (pure v : Answering α)
  bind : ∀ {d k} {α β : Type} {x : Answering α} {f : α → Answering β}, P d k x →
    (∀ v, Yields x v → P d k (f v)) → P d k (x >>= f)
  look : ∀ {d k} {α : Type} {f : Bot → Answering α}, (∀ b c, Bot.Alike a b c → f b = f c) →
    (∀ b, Known b → P d k (f b)) → P d k (bot >>= f)
  draw : ∀ {d k} chances, P d k (draw chances)
  setback : ∀ {d k} kind, P d k (setback kind)
  setVar : ∀ {d k} name value, P d k (onRoster (·.setVar a.user name value))
  setBotVar : ∀ {d k} name value, P d k (changeBot (·.setVar name value))
  setGlobal : ∀ {d k} name value, P d k (changeBot (·.setGlobal name value))
  hotLoad : ∀ {d k} code, P d k (Expansion.hotLoad code)
  setLastMatch : ∀ {d k} pattern, P d k (onRoster (·.setLastMatch a.user pattern))
  previous : ∀ {d k b} topic message, Known b →
    P d k (liftM (Selection.matchPrevious b a.playbook a.user topic message) :
      Answering (Option Match × Nat))
  trigger : ∀ {d k b} topic message, Known b →
    P d k (liftM (Selection.matchTrigger b a.playbook a.user topic message) :
      Answering (Option Match × Nat))
  countTried : ∀ {d k} n, P d k (countTried k n)
  record : ∀ {d k} found, Selected a found → P d k (onStep k fun s =>
    { s with matched := some found.rule.pattern, viaPrevious := found.viaPrevious })
  openStep : ∀ {d k} {s : Step} {f : Nat → Answering Text}, s.depth = d → s.matched = none →
    d ≤ a.playbook.depth → (∀ step, P (d + 1) step (f step)) → P d k (openStep s >>= f)
  /-- Markup around the first answer stands one deeper than what it is part of. -/
  lower : ∀ {k} {x : Answering Text}, P 1 k x → P 0 k x

namespace Rules

variable {a : Asking} {Known : Bot → Prop} {P : Nat → Nat → {α : Type} → Answering α → Prop}
  {d k : Nat}

/-- Inside a step, markup is all the same. -/
theorem markup (h : Rules a Known P) (d k : Nat) : MarkupRules a Known (P d k) where
  pure := h.pure
  bind := h.bind
  look := h.look
  draw := h.draw
  setback := h.setback
  setVar := h.setVar
  setBotVar := h.setBotVar
  setGlobal := h.setGlobal
  hotLoad := h.hotLoad

theorem tryOut (h : Rules a Known P) {result : Except Fault (Option Match × Nat)}
    (hresult : P d k (liftM result : Answering (Option Match × Nat))) :
    P d k (Answer.tryOut k result) :=
  h.bind hresult fun _ _ => h.bind (h.countTried _) fun _ _ => h.pure _

theorem recordMatch (h : Rules a Known P) {found : Option Match}
    (hfound : ∀ m, found = some m → Selected a m) : P d k (Answer.recordMatch a.user k found) := by
  cases found with
  | none => exact h.setLastMatch _
  | some m => exact h.bind (h.setLastMatch _) fun _ _ => h.record m (hfound m rfl)

/-- Only what was selected is put on record. -/
theorem findRule (h : Rules a Known P) (isFirst : Bool) (topic message : Text) :
    P d k (Answer.findRule a isFirst k topic message) := by
  unfold Answer.findRule
  apply h.look
  · intro b c hbc
    simp only [hbc.previous, hbc.trigger]
  intro b hb
  have hprevious : ∀ m, Yields (if isFirst then
      Answer.tryOut k (Selection.matchPrevious b a.playbook a.user topic message)
      else Pure.pure none) (some m) → Selected a m := by
    intro m hm
    split at hm
    · obtain ⟨n, hn⟩ := yields_tryOut hm
      exact ⟨b, topic, message, n, Or.inl hn⟩
    · cases yields_pure hm
  refine h.bind ?_ fun following hfollowing => h.bind ?_ fun found hfound => ?_
  · split
    · exact h.tryOut (h.previous _ _ hb)
    · exact h.pure _
  · split
    · exact h.pure _
    · exact h.tryOut (h.trigger _ _ hb)
  · refine h.bind (h.recordMatch fun m hm => ?_) fun _ _ => h.pure _
    subst hm
    split at hfound
    · obtain rfl := yields_pure hfound
      exact hprevious m hfollowing
    · obtain ⟨n, hn⟩ := yields_tryOut hfound
      exact ⟨b, topic, message, n, Or.inr hn⟩

/-- An answer opens a step of its depth, unless that is too deep, and does everything else inside
that step and by answers one deeper. -/
theorem respond (h : Rules a Known P) {call : Answerer} {depth : Nat}
    (hcall : ∀ step begin message, P (depth + 1) step (call (depth + 1) begin message))
    (begin : Bool) (message : Text) : P depth k (Answer.respond a call depth begin message) := by
  unfold Answer.respond
  split
  · exact h.setback _
  · rename_i hle
    refine h.bind ((h.markup _ _).currentTopic begin) fun found _ => ?_
    cases found with
    | none => exact h.setback _
    | some topic =>
      refine h.openStep rfl rfl (Nat.le_of_not_lt hle) fun step => ?_
      refine h.bind (h.findRule _ _ _) fun found _ => ?_
      split
      · exact h.setback _
      · exact (h.markup _ _).conclude (hcall step) _

theorem resolveFrom (h : Rules a Known P) (levels depth : Nat) (begin : Bool) (message : Text) :
    P depth k (Answer.resolveFrom a levels depth begin message) := by
  induction levels generalizing depth k begin message with
  | zero => exact h.setback _
  | succ levels ih =>
    exact h.respond (fun step begin message => ih (depth + 1) begin message) begin message

theorem resolve (h : Rules a Known P) (depth : Nat) (begin : Bool) (message : Text) :
    P depth k (Answer.resolve a depth begin message) := h.resolveFrom _ _ _ _

theorem answer (h : Rules a Known P) (message : Text) : P 0 k (Answer.answer a message) := by
  unfold Answer.answer Answer.answerWith
  split
  · refine h.bind (h.resolve 0 true _) fun before _ => h.bind ?_ fun text _ => ?_
    · split
      · exact h.bind (h.resolve 0 false message) fun reply _ => h.pure _
      · exact h.pure _
    · exact h.lower ((h.markup _ _).expand (h.resolve 1 false) text)
  · exact h.resolve 0 false message

end Rules

end Dialogue
