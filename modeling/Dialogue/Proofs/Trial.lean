import Dialogue.Proofs.Life

/-! What can go wrong in a reply. Only a setback, or one of the patterns that are tried, and those
stand in the playbook. -/
namespace Dialogue

/-- The patterns that stand in a playbook where replies look for them. -/
inductive Playbook.Tries (p : Playbook) : Text → Prop where
  | ranked {topic : Text} {patterns : List Text} {pattern : Text} :
      p.ranked.find? topic = some patterns → pattern ∈ patterns → p.Tries pattern
  | lookback {topic : Text} {found : List Lookback} {l : Lookback} :
      p.lookbacks.find? topic = some found → l ∈ found → p.Tries l.pattern
  | follower {topic : Text} {found : List Lookback} {l : Lookback} {position : Nat} {r : Rule} :
      p.lookbacks.find? topic = some found → l ∈ found → position ∈ l.positions →
        p.topics.rule? topic position = some r → p.Tries r.pattern

theorem Topics.getElem?_rules (topics : Topics) (name : Text) (position : Nat) :
    (((topics.find? name).map (·.rules)).getD [])[position]? = topics.rule? name position := by
  rw [rule?]
  cases topics.find? name <;> rfl

/-- Whatever goes wrong is one of the given faults. -/
def Within {α : Type} (Q : Fault → Prop) (result : Except Fault α) : Prop :=
  ∀ fault, result = .error fault → Q fault

namespace Within

variable {α β : Type} {Q : Fault → Prop}

theorem ok (v : α) : Within Q (.ok v : Except Fault α) := fun _ h => nomatch h

theorem bind {x : Except Fault α} {f : α → Except Fault β} (hx : Within Q x)
    (hf : ∀ v, Within Q (f v)) : Within Q (x >>= f) := by
  cases x with
  | error fault =>
    intro other h
    cases h
    exact hx fault rfl
  | ok v => exact hf v

end Within

namespace Selection

variable {Q : Fault → Prop} {s : Surroundings} {strict : Bool} {p : Playbook}

theorem within_firstTrigger (topic message : Text) (tried : Nat) {patterns : List Text}
    (h : ∀ pattern ∈ patterns, Within Q (tryPattern s strict pattern message)) :
    Within Q (firstTrigger p s strict topic message tried patterns) := by
  induction patterns generalizing tried with
  | nil => exact .ok _
  | cons pattern rest ih =>
    rw [List.forall_mem_cons] at h
    have hrest := fun tried => ih tried h.2
    refine h.1.bind fun stars => ?_
    split
    · exact hrest _
    · split
      · exact hrest _
      · split
        · exact hrest _
        · exact .ok _

theorem within_firstFollower (topic message : Text) {rules : List Rule} (botStars : List Text)
    (tried : Nat) {positions : List Nat}
    (h : ∀ position ∈ positions, ∀ r, rules[position]? = some r →
      Within Q (tryPattern s strict r.pattern message)) :
    Within Q (firstFollower s strict topic message rules botStars tried positions) := by
  induction positions generalizing tried with
  | nil => exact .ok _
  | cons position rest ih =>
    rw [List.forall_mem_cons] at h
    have hrest := fun tried => ih tried h.2
    unfold firstFollower
    split
    · exact hrest _
    · rename_i r hr
      refine (h.1 r hr).bind fun stars => ?_
      split
      · exact hrest _
      · exact .ok _

theorem within_firstLookback (lastReply message : Text) (tried : Nat)
    {lookbacks : List (Text × Lookback)}
    (h : ∀ entry ∈ lookbacks, Within Q (tryPattern s strict entry.2.pattern lastReply) ∧
      ∀ position ∈ entry.2.positions, ∀ r, p.topics.rule? entry.1 position = some r →
        Within Q (tryPattern s strict r.pattern message)) :
    Within Q (firstLookback p s strict lastReply message tried lookbacks) := by
  induction lookbacks generalizing tried with
  | nil => exact .ok _
  | cons first rest ih =>
    obtain ⟨topic, first⟩ := first
    rw [List.forall_mem_cons] at h
    have hrest := fun tried => ih tried h.2
    refine h.1.1.bind fun stars => ?_
    split
    · exact hrest _
    · rename_i botStars
      have hfollower := within_firstFollower topic message botStars (tried + 1)
        fun position hi r hr => h.1.2 position hi r (by rw [← Topics.getElem?_rules]; exact hr)
      refine hfollower.bind fun result => ?_
      obtain ⟨found, tried⟩ := result
      cases found with
      | none => exact hrest _
      | some _ => exact .ok _

variable {b : Bot}

theorem within_matchTrigger (user topic message : Text)
    (h : ∀ pattern, p.Tries pattern → ∀ message,
      Within Q (tryPattern (surroundings b p user) b.settings.strict pattern message)) :
    Within Q (matchTrigger b p user topic message) := by
  refine within_firstTrigger topic message 0 fun pattern hpattern => ?_
  cases hr : p.ranked.find? topic with
  | none =>
    rw [hr] at hpattern
    cases hpattern
  | some patterns =>
    rw [hr] at hpattern
    exact h pattern (.ranked hr hpattern) _

theorem within_matchPrevious (user topic message : Text)
    (h : ∀ pattern, p.Tries pattern → ∀ message,
      Within Q (tryPattern (surroundings b p user) b.settings.strict pattern message)) :
    Within Q (matchPrevious b p user topic message) := by
  unfold matchPrevious
  dsimp only
  split
  · exact .ok _
  · refine within_firstLookback _ message 0 fun entry hentry => ?_
    obtain ⟨name, -, hentry⟩ := List.mem_flatMap.mp hentry
    obtain ⟨l, hl, rfl⟩ := List.mem_map.mp hentry
    cases hf : p.lookbacks.find? name with
    | none =>
      rw [hf] at hl
      cases hl
    | some found =>
      rw [hf] at hl
      exact ⟨h _ (.lookback hf hl) _, fun position hi r hr => h _ (.follower hf hl hi hr) _⟩

end Selection

/-! ### Whole replies -/

namespace Answering

variable {α β : Type} {Q : Fault → Prop} {b : Bot}

/-- Whatever has become of the bot, the answer ends in a text or in one of the given faults. -/
def Fails (b : Bot) (Q : Fault → Prop) (x : Answering α) : Prop :=
  ∀ p, b.Later p.bot → Within Q (x.run.run p).1 ∧ b.Later (x.run.run p).2.bot

theorem fails_pure (v : α) : Fails b Q (pure v) := fun _ hp => ⟨.ok _, hp⟩

theorem fails_bind {x : Answering α} {f : α → Answering β} (hx : Fails b Q x)
    (hf : ∀ v, Yields x v → Fails b Q (f v)) : Fails b Q (x >>= f) := by
  intro p hp
  obtain ⟨hwithin, hq⟩ := hx p hp
  rw [run_bind]
  rcases hr : x.run.run p with ⟨result, q⟩
  rw [hr] at hwithin hq
  cases result with
  | error fault =>
    refine ⟨fun other h => ?_, hq⟩
    cases h
    exact hwithin fault rfl
  | ok v => exact hf v ⟨p, q, hr⟩ q hq

theorem fails_except {e : Except Fault α} (he : Within Q e) : Fails b Q (liftM e : Answering α) := by
  intro p hp
  refine ⟨?_, ?_⟩
  · cases e with
    | error fault =>
      intro other h
      cases h
      exact he fault rfl
    | ok v => exact .ok v
  · cases e <;> exact hp

theorem fails_setback (hQ : ∀ kind text, Q (.setback kind text)) (kind : Setback) :
    Fails b Q (setback kind) := by
  intro p hp
  rw [run_setback]
  refine ⟨?_, hp⟩
  unfold setbackResult
  dsimp only
  split
  · intro fault h
    cases h
    exact hQ kind _
  · exact .ok _

theorem rules_fails {a : Asking} (hQ : ∀ kind text, Q (.setback kind text))
    (h : ∀ pattern, a.playbook.Tries pattern → ∀ c, b.Later c → ∀ message, Within Q
      (Selection.tryPattern (Selection.surroundings c a.playbook a.user) c.settings.strict pattern
        message)) :
    Rules a b.Later fun _ _ _ x => Fails b Q x where
  pure := fails_pure
  bind := fails_bind
  look _ hf p hp := hf p.bot hp p hp
  draw chances p hp := by
    rw [run_draw]
    exact ⟨.ok _, hp⟩
  setback := fails_setback hQ
  setVar name value p hp :=
    ⟨.ok _, hp.trans (Bot.Change.onRoster (b := p.bot) (·.setVar a.user name value)).later⟩
  setBotVar _ _ _ hp := ⟨.ok _, hp.trans (Bot.Change.setVar _ _).later⟩
  setGlobal _ _ _ hp := ⟨.ok _, hp.trans (Bot.Change.setGlobal _ _).later⟩
  hotLoad code p hp := ⟨.ok _, hp.trans (Bot.later_hotLoad p.bot code)⟩
  setLastMatch pattern p hp :=
    ⟨.ok _, hp.trans (Bot.Change.onRoster (b := p.bot) (·.setLastMatch a.user pattern)).later⟩
  previous _ _ hc := fails_except <| Selection.within_matchPrevious _ _ _ fun pattern hp =>
    h pattern hp _ hc
  trigger _ _ hc := fails_except <| Selection.within_matchTrigger _ _ _ fun pattern hp =>
    h pattern hp _ hc
  countTried _ _ hp := ⟨.ok _, hp⟩
  record _ _ _ hp := ⟨.ok _, hp⟩
  openStep _ _ _ hf p hp := hf p.steps.length { p with steps := p.steps ++ [_] } hp
  lower hx := hx

end Answering

namespace Bot

/-- A reply fails only by setbacks and by patterns of the playbook, where the user then stands with the
bot. -/
theorem within_reply {Q : Fault → Prop} (hQ : ∀ kind text, Q (.setback kind text)) {b : Bot}
    {user : Text} (h : ∀ p ∈ b.playbook, ∀ pattern, p.Tries pattern → ∀ c, b.Later c → ∀ message,
      Within Q (Selection.tryPattern (Selection.surroundings c p user) c.settings.strict pattern message))
    (draws : List Nat) (message : Text) : Within Q (b.reply draws user message).result := by
  intro fault hfault
  cases hp : b.playbook with
  | none =>
    rw [Bot.reply, hp] at hfault
    dsimp only at hfault
    split at hfault
    · cases hfault
      exact hQ _ _
    · cases hfault
  | some p =>
    obtain ⟨q, hrun⟩ := answered_of_error hp hfault
    have hfails : Answering.Fails b Q (Answer.answer ⟨user, p⟩ (p.canon.format false message)) :=
      (Answering.rules_fails (a := ⟨user, p⟩) hQ (h p hp)).answer (k := 0) _
    have hlater : b.Later (b.onRoster (·.welcome user)) := (Change.onRoster _).later
    exact (hfails _ hlater).1 fault (congrArg Prod.fst hrun)

end Bot

end Dialogue
