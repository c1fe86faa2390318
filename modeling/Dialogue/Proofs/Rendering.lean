import Dialogue.Proofs.Life
import Dialogue.Proofs.Trial

/-! Bots that throw setbacks and bots that render them. As nothing catches what is thrown, a reply
of a throwing bot met no setback at all, so a rendering bot gives it in the same way. -/
namespace Dialogue

open Answering

/-- The same bot with the choice whether setbacks are faults. -/
def Bot.throwing (b : Bot) (throws : Bool) : Bot :=
  { b with settings := { b.settings with throws } }

def Process.throwing (p : Process) (throws : Bool) : Process :=
  { p with bot := p.bot.throwing throws }

/-! ### Loading does not look at the choice -/

theorem Reading.steps_throws (settings : Settings) (throws : Bool) (source : Text) (number : Nat)
    (lines : List Text) (r : Reading) :
    steps { settings with throws } source number lines r = steps settings source number lines r := by
  induction lines generalizing number r with
  | nil => rfl
  | cons line following ih =>
    have hstep : step { settings with throws } source number (Text.trim line) following r =
        step settings source number (Text.trim line) following r := rfl
    rw [steps, steps, hstep]
    exact bind_congr fun r => ih _ _

theorem Document.ofText_throws (settings : Settings) (throws : Bool) (source code : Text) :
    ofText { settings with throws } source code = ofText settings source code := by
  rw [ofText, ofText, Reading.steps_throws]

namespace Bot

variable (b : Bot) (throws : Bool)

theorem stream_throwing (code : Text) :
    (b.throwing throws).stream code = (b.stream code).map (·.throwing throws) := by
  have hread : Document.ofText (b.throwing throws).settings "stream()" code =
      Document.ofText b.settings "stream()" code := Document.ofText_throws _ _ _ _
  rw [stream, load, hread, stream, load]
  cases Document.ofText b.settings "stream()" code <;> rfl

theorem sort_throwing : (b.throwing throws).sort = b.sort.map (·.throwing throws) := by
  have hplaybook : Playbook.ofScript (b.throwing throws).settings (b.throwing throws).depth b.script =
      Playbook.ofScript b.settings b.depth b.script := rfl
  rw [sort, sort]
  show (Playbook.ofScript (b.throwing throws).settings (b.throwing throws).depth b.script).map _ = _
  rw [hplaybook]
  cases Playbook.ofScript b.settings b.depth b.script <;> rfl

theorem hotLoad_throwing (code : Text) : (b.throwing throws).hotLoad code =
    ((b.hotLoad code).1, (b.hotLoad code).2.throwing throws) := by
  rw [hotLoad, hotLoad, stream_throwing]
  cases b.stream code with
  | error fault => rfl
  | ok loaded =>
    simp only [Except.map, sort_throwing]
    cases loaded.sort <;> rfl

theorem settings_hotLoad (code : Text) : (b.hotLoad code).2.settings = b.settings :=
  (later_hotLoad b code).settings

theorem alike_throwing (a : Asking) : Bot.Alike a b (b.throwing throws) where
  history := rfl
  var _ := rfl
  botVar _ := rfl
  global _ := rfl
  wording := rfl
  call _ _ := rfl
  previous _ _ := rfl
  trigger _ _ := rfl

end Bot

/-! ### Matching fails only by a pattern, and only for strict bots -/

namespace Selection

/-- No setback, and no fault at all unless the bot is strict. -/
def OnlyPatterns {α : Type} (strict : Bool) (result : Except Fault α) : Prop :=
  ∀ fault, result = .error fault → fault.isSetback = false ∧ strict = true

theorem ofPattern_lenient (s : Surroundings) (pattern : Text) :
    ∃ m, Matcher.ofPattern s false pattern = .ok m := by
  rw [Matcher.ofPattern]
  split
  · exact ⟨_, rfl⟩
  · split
    · exact ⟨_, rfl⟩
    · split <;> exact ⟨_, rfl⟩

theorem onlyPatterns_tryPattern (s : Surroundings) (strict : Bool) (pattern message : Text) :
    OnlyPatterns strict (tryPattern s strict pattern message) := by
  intro fault h
  rw [tryPattern] at h
  cases hm : Matcher.ofPattern s strict pattern with
  | ok m =>
    rw [hm] at h
    cases h
  | error cause =>
    rw [hm] at h
    cases h
    refine ⟨rfl, ?_⟩
    cases strict with
    | true => rfl
    | false =>
      obtain ⟨m, hok⟩ := ofPattern_lenient s pattern
      rw [hok] at hm
      cases hm

theorem OnlyPatterns.ok {α : Type} {strict : Bool} (v : α) :
    OnlyPatterns strict (.ok v : Except Fault α) := fun _ h => nomatch h

theorem onlyPatterns_matchTrigger (b : Bot) (p : Playbook) (user topic message : Text) :
    OnlyPatterns b.settings.strict (matchTrigger b p user topic message) :=
  within_matchTrigger user topic message fun pattern _ message =>
    onlyPatterns_tryPattern _ b.settings.strict pattern message

theorem onlyPatterns_matchPrevious (b : Bot) (p : Playbook) (user topic message : Text) :
    OnlyPatterns b.settings.strict (matchPrevious b p user topic message) :=
  within_matchPrevious user topic message fun pattern _ message =>
    onlyPatterns_tryPattern _ b.settings.strict pattern message

end Selection

/-! ### One run beside the other -/

open Selection

variable {α β : Type}

/-- What a bot answers without a fault it also answers if it renders setbacks, and then only
patterns of strict bots are faults. -/
structure Renders (strict : Bool) (x : Answering α) : Prop where
  agrees : ∀ p v q, p.bot.settings.strict = strict → x.run.run p = (.ok v, q) →
    x.run.run (p.throwing false) = (.ok v, q.throwing false)
  settings : ∀ p, p.bot.settings.strict = strict →
    (x.run.run p).2.bot.settings = p.bot.settings
  faults : ∀ p, p.bot.settings.strict = strict → p.bot.settings.throws = false →
    OnlyPatterns strict (x.run.run p).1

namespace Renders

variable {strict : Bool} {x : Answering α} {f : α → Answering β}

/-- Parts that neither see the choice nor touch the settings, and have no fault. -/
theorem of_run (value : Process → α) (after : Process → Process)
    (hrun : ∀ p, x.run.run p = (.ok (value p), after p))
    (hvalue : ∀ p, value (p.throwing false) = value p)
    (hafter : ∀ p, after (p.throwing false) = (after p).throwing false)
    (hsettings : ∀ p, (after p).bot.settings = p.bot.settings) : Renders strict x where
  agrees p v q _ h := by
    rw [hrun] at h
    cases h
    rw [hrun, hvalue, hafter]
  settings p _ := by rw [hrun, hsettings]
  faults p _ _ := by
    rw [hrun]
    exact .ok _

theorem bind (hx : Renders strict x) (hf : ∀ v, Yields x v → Renders strict (f v)) :
    Renders strict (x >>= f) where
  agrees p w q hp h := by
    rw [run_bind] at h
    rcases hr : x.run.run p with ⟨result, r⟩
    rw [hr] at h
    cases result with
    | error fault => cases h
    | ok v =>
      have hstrict : r.bot.settings.strict = strict := by
        have hset := hx.settings p hp
        rw [hr] at hset
        rw [hset, hp]
      rw [run_bind, hx.agrees p v r hp hr]
      exact (hf v ⟨p, r, hr⟩).agrees r w q hstrict h
  settings p hp := by
    have hset := hx.settings p hp
    rw [run_bind]
    rcases hr : x.run.run p with ⟨result, r⟩
    rw [hr] at hset
    cases result with
    | error fault => exact hset
    | ok v => exact ((hf v ⟨p, r, hr⟩).settings r (hset ▸ hp)).trans hset
  faults p hp ht := by
    have hset := hx.settings p hp
    have hfault := hx.faults p hp ht
    rw [run_bind]
    rcases hr : x.run.run p with ⟨result, r⟩
    rw [hr] at hset hfault
    cases result with
    | error fault =>
      intro fault' h
      cases h
      exact hfault fault rfl
    | ok v => exact (hf v ⟨p, r, hr⟩).faults r (hset ▸ hp) (hset ▸ ht)

theorem look {f : Bot → Answering α} (a : Asking)
    (halike : ∀ b c, Bot.Alike a b c → f b = f c)
    (hf : ∀ b, b.settings.strict = strict → Renders strict (f b)) :
    Renders strict (bot >>= f) where
  agrees p v q hp h := by
    have hsame : f (p.throwing false).bot = f p.bot :=
      (halike _ _ (p.bot.alike_throwing false a)).symm
    have hrun := (hf p.bot hp).agrees p v q hp h
    rw [← hsame] at hrun
    exact hrun
  settings p hp := (hf p.bot hp).settings p hp
  faults p hp ht := (hf p.bot hp).faults p hp ht

theorem setback (kind : Setback) : Renders strict (setback kind) where
  agrees p v q _ h := by
    rw [run_setback] at h ⊢
    obtain ⟨hv, rfl⟩ := Prod.mk.inj h
    unfold setbackResult at hv
    dsimp only at hv
    split at hv
    · cases hv
    · cases hv
      rfl
  settings p _ := by rw [run_setback]
  faults p _ ht := by
    rw [run_setback, setbackResult, ht]
    exact .ok _

theorem except {e : Except Fault α} (he : OnlyPatterns strict e) :
    Renders strict (liftM e : Answering α) where
  agrees p v q _ h := by
    cases e with
    | error fault => cases h
    | ok w =>
      cases h
      rfl
  settings p _ := by cases e <;> rfl
  faults p _ _ := by
    intro fault h
    cases e with
    | error fault' =>
      cases h
      exact he fault rfl
    | ok w => cases h

theorem draw (chances : List Nat) : Renders strict (draw chances) :=
  of_run (fun p => drawn chances p.draws) (fun p => { p with draws := p.draws.tail })
    (run_draw chances) (fun _ => rfl) (fun _ => rfl) fun _ => rfl

theorem openStep (s : Step) : Renders strict (openStep s) :=
  of_run (fun p => p.steps.length) (fun p => { p with steps := p.steps ++ [s] })
    (fun _ => rfl) (fun _ => rfl) (fun _ => rfl) fun _ => rfl

/-- What markup changes is changed in the same way, whatever the choice is. -/
theorem changeBot {g : Bot → Bot} (hg : ∀ b, g (b.throwing false) = (g b).throwing false)
    (hsettings : ∀ b, (g b).settings = b.settings) : Renders strict (changeBot g) :=
  of_run (fun _ => ()) (fun p => { p with bot := g p.bot }) (fun _ => rfl) (fun _ => rfl)
    (fun p => congrArg (fun b => { p with bot := b }) (hg p.bot)) fun p => hsettings p.bot

theorem hotLoad (code : Text) : Renders strict (Expansion.hotLoad code) :=
  of_run (fun _ => []) (fun p => { p with bot := (p.bot.hotLoad code).2 }) (fun _ => rfl)
    (fun _ => rfl)
    (fun p => congrArg (fun b => { p with bot := b })
      (congrArg Prod.snd (p.bot.hotLoad_throwing false code)))
    fun p => p.bot.settings_hotLoad code

theorem countTried (step n : Nat) : Renders strict (countTried step n) :=
  of_run (fun _ => ()) (fun p =>
      { p with
        tried := p.tried + n
        steps := p.steps.modify step fun s => { s with tried := s.tried + n } })
    (fun _ => rfl) (fun _ => rfl) (fun _ => rfl) fun _ => rfl

theorem onStep (step : Nat) (g : Step → Step) : Renders strict (onStep step g) :=
  of_run (fun _ => ()) (fun p => { p with steps := p.steps.modify step g }) (fun _ => rfl)
    (fun _ => rfl) (fun _ => rfl) fun _ => rfl

theorem rules (a : Asking) (strict : Bool) :
    Rules a (·.settings.strict = strict) fun _ _ _ x => Renders strict x where
  pure v := of_run (fun _ => v) id (fun _ => rfl) (fun _ => rfl) (fun _ => rfl) fun _ => rfl
  bind := bind
  look h hf := look a h hf
  draw := draw
  setback := setback
  setVar _ _ := changeBot (fun _ => rfl) fun _ => rfl
  setBotVar _ _ := changeBot (fun _ => rfl) fun _ => rfl
  setGlobal _ _ := changeBot (fun _ => rfl) fun _ => rfl
  hotLoad := hotLoad
  setLastMatch _ := changeBot (fun _ => rfl) fun _ => rfl
  previous topic message hb := except (hb ▸ onlyPatterns_matchPrevious _ _ _ topic message)
  trigger topic message hb := except (hb ▸ onlyPatterns_matchTrigger _ _ _ topic message)
  countTried n := countTried _ n
  record _ _ := onStep _ _
  openStep _ _ _ hf := (openStep _).bind fun step _ => hf step
  lower h := h

end Renders

theorem renders_answer (a : Asking) (strict : Bool) (message : Text) :
    Renders strict (Answer.answer a message) :=
  (Renders.rules a strict).answer (k := 0) message

namespace Bot

variable (b : Bot) (draws : List Nat) (user message : Text)

theorem rendered_of_thrown {e : Exchange}
    (h : ((b.throwing true).reply draws user message).result = .ok e) :
    ((b.throwing false).reply draws user message).result = .ok e ∧
      ((b.throwing false).reply draws user message).bot =
        ((b.throwing true).reply draws user message).bot.throwing false := by
  cases hp : b.playbook with
  | none =>
    have ht : (b.throwing true).playbook = none := hp
    rw [reply, ht] at h
    cases h
  | some p =>
    have hthrows : (b.throwing true).playbook = some p := hp
    have hrenders : (b.throwing false).playbook = some p := hp
    obtain ⟨text, q, hrun, rfl⟩ := answered_of_ok hthrows h
    have hsame : (b.throwing false).answered p draws user message =
        (.ok text, q.throwing false) :=
      (renders_answer ⟨user, p⟩ b.settings.strict (p.canon.format false message)).agrees _ text q
        rfl hrun
    rw [reply_of_text hthrows hrun, reply_of_text hrenders hsame]
    exact ⟨rfl, rfl⟩

theorem fault_of_rendering {fault : Fault}
    (h : ((b.throwing false).reply draws user message).result = .error fault) :
    fault.isSetback = false ∧ b.settings.strict = true := by
  cases hp : b.playbook with
  | none =>
    have ht : (b.throwing false).playbook = none := hp
    rw [reply, ht] at h
    cases h
  | some p =>
    obtain ⟨q, hrun⟩ := answered_of_error (show (b.throwing false).playbook = some p from hp) h
    have hfaults :=
      (renders_answer ⟨user, p⟩ b.settings.strict (p.canon.format false message)).faults
        { bot := (b.throwing false).onRoster (·.welcome user), draws } rfl rfl
    exact hfaults fault (congrArg Prod.fst hrun)

/-- A reply that a throwing bot gives, a rendering bot gives as well, with the same record and
the same effects. A rendering bot has no setbacks, and no faults at all unless it is strict. -/
theorem thrown_and_rendered :
    (∀ e, ((b.throwing true).reply draws user message).result = .ok e →
      ((b.throwing false).reply draws user message).result = .ok e ∧
        ((b.throwing false).reply draws user message).bot =
          ((b.throwing true).reply draws user message).bot.throwing false) ∧
    (∀ fault, ((b.throwing false).reply draws user message).result = .error fault →
      fault.isSetback = false ∧ b.settings.strict = true) :=
  ⟨fun _ h => rendered_of_thrown b draws user message h,
    fun _ h => fault_of_rendering b draws user message h⟩

/-- A bot that remembers a mood and redirects inside its reply. -/
def cheerful : Bot where
  playbook := some
    { topics := ⟨[("random", { rules := [
        { pattern := "hello", replies := ["<set mood=good>Hi {@who are you}"] },
        { pattern := "who are you", replies := ["Bob"] }] })]⟩
      ranked := ⟨[("random", ["who are you", "hello"])]⟩ }

theorem cheerful_rendered :
    ∃ e : Exchange, e.reply = "Hi Bob" ∧
      ((cheerful.throwing true).reply [] "user" "Hello!").result = .ok e ∧
      ((cheerful.throwing false).reply [] "user" "Hello!").result = .ok e ∧
      ((cheerful.throwing false).reply [] "user" "Hello!").bot.roster.var? "user" "mood" =
        some ("good" : Text) := by
  have hthrown : ((cheerful.throwing true).reply [] "user" "Hello!").result = .ok
      { reply := "Hi Bob"
        message := "hello"
        steps := [⟨0, "random", "hello", some "hello", false, 2, false⟩,
          ⟨1, "random", "who are you", some "who are you", false, 1, false⟩]
        tried := 3 } := ok_of_toOption (by decide +kernel)
  obtain ⟨hrendered, hbot⟩ := (thrown_and_rendered cheerful [] "user" "Hello!").1 _ hthrown
  refine ⟨_, rfl, hthrown, hrendered, ?_⟩
  rw [hbot]
  decide +kernel

end Bot

end Dialogue
