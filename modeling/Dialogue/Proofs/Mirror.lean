import Dialogue.Proofs.Depth
import Dialogue.Proofs.Pairs

/-! Two replies side by side that do not keep the same record. One of them mirrors the other as long as
that one opens no step of a kind in which they would part. -/
namespace Dialogue

open Answering

/-- A relation of bots that no reply to the user looks behind, and that whatever replies do keeps. -/
structure Bot.Unread (user : Text) (R : Bot → Bot → Prop) : Prop where
  setback : ∀ {b c}, R b c → ∀ kind, setbackResult b kind = setbackResult c kind
  alike : ∀ {b c}, R b c → ∀ p, Bot.Alike ⟨user, p⟩ b c
  setUserVar : ∀ {b c}, R b c → ∀ name value,
    R (b.onRoster (·.setVar user name value)) (c.onRoster (·.setVar user name value))
  setLastMatch : ∀ {b c}, R b c → ∀ pattern,
    R (b.onRoster (·.setLastMatch user pattern)) (c.onRoster (·.setLastMatch user pattern))
  setVar : ∀ {b c}, R b c → ∀ name value, R (b.setVar name value) (c.setVar name value)
  setGlobal : ∀ {b c}, R b c → ∀ name value, R (b.setGlobal name value) (c.setGlobal name value)
  hotLoad : ∀ {b c}, R b c → ∀ code, R (b.hotLoad code).2 (c.hotLoad code).2

theorem Bot.Unseen.unread {user : Text} {R : Bot → Bot → Prop} (h : Bot.Unseen user R) :
    Bot.Unread user R where
  setback := h.setback
  alike := h.alike
  setUserVar hR _ _ := h.alter hR _
  setLastMatch hR _ := h.alter hR _
  setVar := h.setVar
  setGlobal := h.setGlobal
  hotLoad := h.hotLoad

/-- A kind of steps, by their depth, their topic, and whether they stand before the reply. -/
abbrev StepKind := Nat → Text → Bool → Prop

/-- What is settled about a step when it is opened. -/
def Step.place (s : Step) : Nat × Text × Bool := (s.depth, s.topic, s.begin)

namespace Process

/-- The processes go on alike. Their records are not looked at. -/
structure Beside (R : Bot → Bot → Prop) (p q : Process) : Prop where
  bot : R p.bot q.bot
  draws : p.draws = q.draws

/-- A step of the kind has been opened. -/
def Strays (bad : StepKind) (q : Process) : Prop := ∃ s ∈ q.steps, bad s.depth s.topic s.begin

def places (q : Process) : List (Nat × Text × Bool) := q.steps.map Step.place

theorem strays_iff {bad : StepKind} {q : Process} :
    q.Strays bad ↔ ∃ s ∈ q.places, bad s.1 s.2.1 s.2.2 := by
  constructor
  · rintro ⟨s, hs, hbad⟩
    exact ⟨s.place, List.mem_map_of_mem hs, hbad⟩
  · rintro ⟨_, hplace, hbad⟩
    obtain ⟨s, hs, rfl⟩ := List.mem_map.mp hplace
    exact ⟨s, hs, hbad⟩

theorem Strays.of_places {bad : StepKind} {q r : Process} (hplaces : q.places = r.places)
    (h : q.Strays bad) : r.Strays bad := by
  rw [strays_iff] at h ⊢
  rwa [← hplaces]

end Process

open Process

variable {α β : Type} {user : Text} {R : Bot → Bot → Prop} {bad : StepKind}

/-- Markup is carried out alike for both who are asked. -/
structure SameMarkup (a b : Asking) : Prop where
  user : a.user = b.user
  arrays : a.playbook.arrays = b.playbook.arrays
  person : a.playbook.person = b.playbook.person
  depth : a.playbook.depth = b.playbook.depth

/-- The first answer is what the second one is, unless that one strays, which it never takes back. -/
structure Mirrors (R : Bot → Bot → Prop) (bad : StepKind) (x y : Answering α) : Prop where
  same : ∀ p q, p.Beside R q → ¬ (y.run.run q).2.Strays bad →
    (x.run.run p).1 = (y.run.run q).1 ∧ (x.run.run p).2.Beside R (y.run.run q).2
  stays : Moves (fun q r => q.Strays bad → r.Strays bad) y

namespace Mirrors

variable {x y : Answering α} {f g : α → Answering β}

theorem composes_stays (bad : StepKind) : Composes fun q r => q.Strays bad → r.Strays bad :=
  ⟨fun _ h => h, fun hqr hrs h => hrs (hqr h)⟩

theorem bind (h : Mirrors R bad x y) (hf : ∀ v, Yields y v → Mirrors R bad (f v) (g v)) :
    Mirrors R bad (x >>= f) (y >>= g) where
  same p q hpq hstrays := by
    rw [run_bind] at hstrays
    rw [run_bind, run_bind]
    rcases hp : x.run.run p with ⟨result, p'⟩
    rcases hq : y.run.run q with ⟨result', q'⟩
    rw [hq] at hstrays
    have hfirst : ¬ q'.Strays bad := by
      cases result' with
      | error fault => exact hstrays
      | ok v => exact fun h => hstrays ((hf v ⟨q, q', hq⟩).stays q' h)
    obtain ⟨hresult, hbeside⟩ := h.same p q hpq (by rw [hq]; exact hfirst)
    rw [hp, hq] at hresult hbeside
    obtain rfl : result = result' := hresult
    cases result with
    | error fault => exact ⟨rfl, hbeside⟩
    | ok v => exact (hf v ⟨q, q', hq⟩).same p' q' hbeside hstrays
  stays := moves_bind (composes_stays bad) h.stays fun v hv => (hf v hv).stays

theorem pure (v : α) : Mirrors R bad (pure v : Answering α) (Pure.pure v) where
  same _ _ h _ := ⟨rfl, h⟩
  stays := moves_pure (composes_stays bad) v

/-- What opens no step mirrors whatever is the same for related bots. -/
theorem of_places (hplaces : ∀ q, (y.run.run q).2.places = q.places)
    (h : ∀ p q, p.Beside R q →
      (x.run.run p).1 = (y.run.run q).1 ∧ (x.run.run p).2.Beside R (y.run.run q).2) :
    Mirrors R bad x y where
  same p q hpq _ := h p q hpq
  stays q := Strays.of_places (hplaces q).symm

theorem changeBot {k : Bot → Bot} (hk : ∀ {b c}, R b c → R (k b) (k c)) :
    Mirrors R bad (changeBot k) (Answering.changeBot k) :=
  of_places (fun _ => rfl) fun _ _ h => ⟨rfl, { h with bot := hk h.bot }⟩

theorem setback (hR : Bot.Unread user R) (kind : Setback) :
    Mirrors R bad (setback kind) (Answering.setback kind) := by
  refine of_places (fun q => ?_) fun p q h => ?_
  · rw [run_setback]
  · rw [run_setback, run_setback, hR.setback h.bot]
    exact ⟨rfl, h⟩

theorem draw (chances : List Nat) : Mirrors R bad (draw chances) (Answering.draw chances) := by
  refine of_places (fun q => ?_) fun p q h => ?_
  · rw [run_draw]
    rfl
  · rw [run_draw, run_draw, h.draws]
    exact ⟨rfl, { h with draws := rfl }⟩

theorem look {f g : Bot → Answering α} (hR : Bot.Unread user R) {p : Playbook}
    (halike : ∀ b c, Bot.Alike ⟨user, p⟩ b c → f b = f c) (hf : ∀ b, Mirrors R bad (f b) (g b)) :
    Mirrors R bad (bot >>= f) (bot >>= g) where
  same p' q hpq hstrays := by
    rw [run_bot] at hstrays
    rw [run_bot, run_bot, halike p'.bot q.bot (hR.alike hpq.bot p)]
    exact (hf q.bot).same p' q hpq hstrays
  stays q := (hf q.bot).stays q

theorem rules (R : Bot → Bot → Prop) (bad : StepKind) : PairRules fun x y => Mirrors R bad x y where
  pure := .pure
  bind h hf := h.bind fun v _ => hf v
  draw := .draw

/-- Markup mirrors itself. Answers do not, since they number their steps. -/
theorem markup {a : Asking} (hR : Bot.Unread a.user R) (bad : StepKind) :
    MarkupRules a (fun _ => True) fun x => Mirrors R bad x x where
  pure := .pure
  bind hx hf := hx.bind hf
  look halike hf := .look hR halike fun b => hf b trivial
  draw := .draw
  setback := .setback hR
  setVar name value := .changeBot fun h => hR.setUserVar h name value
  setBotVar name value := .changeBot fun h => hR.setVar h name value
  setGlobal name value := .changeBot fun h => hR.setGlobal h name value
  hotLoad code := of_places (fun _ => rfl) fun _ _ h =>
    ⟨rfl, { h with bot := hR.hotLoad h.bot code }⟩

/-! ### Markup -/

theorem editEach {α : Type} (read : Reader α) {f g : α → Answering Text}
    (h : ∀ v, Mirrors R bad (f v) (g v)) (limit : Nat) (t : Text) :
    Mirrors R bad (Expansion.editEach read f limit t) (Expansion.editEach read g limit t) := by
  induction limit generalizing t with
  | zero => exact .pure t
  | succ limit ih =>
    unfold Expansion.editEach
    split
    · exact .pure t
    · exact (h _).bind fun new _ => ih _

variable {a b : Asking} {call call' : Answerer} {turn turn' : Turn}

theorem expand (hR : Bot.Unread b.user R) (h : SameMarkup a b) (hstars : turn.stars = turn'.stars)
    (hbotStars : turn.botStars = turn'.botStars)
    (hcall : ∀ message, Mirrors R bad (call (turn.depth + 1) false message)
      (call' (turn'.depth + 1) false message)) (t : Text) :
    Mirrors R bad (Expansion.expand a call turn t) (Expansion.expand b call' turn' t) := by
  have hmarkup := markup hR bad
  unfold Expansion.expand
  rw [h.user, h.arrays, h.person, h.depth, hstars, hbotStars]
  refine look hR (p := b.playbook) (fun b c hbc => by rw [hbc.history]) fun c => ?_
  dsimp only
  refine (hmarkup.editEach _ hmarkup.pick _ _).bind fun t _ => ?_
  refine (hmarkup.editEach _ hmarkup.hotLoad _ _).bind fun t _ => ?_
  refine (hmarkup.formatBlocks _ _ _ _).bind fun t _ => ?_
  refine (hmarkup.carryOutTags _).bind fun t _ => ?_
  refine (hmarkup.editEach _ hmarkup.enterTopic _ _).bind fun t _ => ?_
  refine (editEach _ (fun target => hcall _) _ _).bind fun t _ => ?_
  exact hmarkup.editEach _ hmarkup.callObject _ _

end Mirrors

/-! ### Looking for a rule -/

/-- Patterns are all that can be at fault. -/
def FaultsOfPatterns (x : Except Fault α) : Prop :=
  ∀ fault, x = .error fault → ∃ pattern cause, fault = .pattern pattern cause

theorem FaultsOfPatterns.ok (v : α) : FaultsOfPatterns (.ok v : Except Fault α) := by
  rintro fault ⟨⟩

theorem FaultsOfPatterns.bind {x : Except Fault α} {f : α → Except Fault β} (h : FaultsOfPatterns x)
    (hf : ∀ v, FaultsOfPatterns (f v)) : FaultsOfPatterns (x >>= f) := by
  intro fault hfault
  cases x with
  | error other =>
    have hsame : other = fault := Except.error.inj hfault
    exact h fault (congrArg Except.error hsame)
  | ok v => exact hf v fault hfault

namespace Selection

variable (s : Surroundings) (strict : Bool) (topic message : Text)

theorem faultsOfPatterns_tryPattern (pattern : Text) :
    FaultsOfPatterns (tryPattern s strict pattern message) := by
  intro fault h
  rw [tryPattern] at h
  split at h
  · cases h
  · cases h
    exact ⟨_, _, rfl⟩

theorem faultsOfPatterns_firstTrigger (p : Playbook) (tried : Nat) (patterns : List Text) :
    FaultsOfPatterns (firstTrigger p s strict topic message tried patterns) := by
  induction patterns generalizing tried with
  | nil => exact .ok _
  | cons pattern patterns ih =>
    refine (faultsOfPatterns_tryPattern s strict message pattern).bind fun stars => ?_
    repeat' split
    all_goals first
      | exact ih _
      | exact .ok _

theorem faultsOfPatterns_firstFollower (rules : List Rule) (botStars : List Text) (tried : Nat)
    (positions : List Nat) : FaultsOfPatterns
      (firstFollower s strict topic message rules botStars tried positions) := by
  induction positions generalizing tried with
  | nil => exact .ok _
  | cons position positions ih =>
    rw [firstFollower]
    split
    · exact ih _
    · refine (faultsOfPatterns_tryPattern s strict message _).bind fun stars => ?_
      split
      · exact ih _
      · exact .ok _

theorem faultsOfPatterns_firstLookback (p : Playbook) (lastReply : Text) (tried : Nat)
    (lookbacks : List (Text × Lookback)) :
    FaultsOfPatterns (firstLookback p s strict lastReply message tried lookbacks) := by
  induction lookbacks generalizing tried with
  | nil => exact .ok _
  | cons l lookbacks ih =>
    refine (faultsOfPatterns_tryPattern s strict lastReply _).bind fun botStars => ?_
    split
    · exact ih _
    · refine (faultsOfPatterns_firstFollower s strict _ message _ _ _ _).bind fun found => ?_
      split
      · exact .ok _
      · exact ih _

theorem faultsOfPatterns_matchTrigger (b : Bot) (p : Playbook) (user : Text) :
    FaultsOfPatterns (matchTrigger b p user topic message) :=
  faultsOfPatterns_firstTrigger _ _ topic message p 0 _

theorem faultsOfPatterns_matchPrevious (b : Bot) (p : Playbook) (user : Text) :
    FaultsOfPatterns (matchPrevious b p user topic message) := by
  rw [matchPrevious]
  split
  · exact .ok _
  · exact faultsOfPatterns_firstLookback _ _ message p _ 0 _

end Selection

/-! ### Answers -/

namespace Answer

/-- What the user's message, or the target of a redirect, is answered with once the rule is
known. -/
def finish (a : Asking) (call : Answerer) (depth : Nat) (topic message : Text) :
    Option Match → Answering Text
  | none => setback .notMatched
  | some found => do
    let turn : Turn := { depth, message, topic, stars := found.stars, botStars := found.botStars }
    let text ← speak (Expansion.expand a call turn) (call (depth + 1) false) found.rule
    if text = [] then setback .noReply else Expansion.expand a call turn text

theorem respond_eq (a : Asking) (call : Answerer) {depth : Nat} (h : depth ≤ a.playbook.depth)
    (message : Text) : respond a call depth false message = (do
      match ← currentTopic a false with
      | none => setback .noDefaultTopic
      | some topic =>
        let step ← openStep { depth, topic, message }
        finish a call depth topic message (← findRule a (depth == 0) step topic message)) := by
  rw [respond, if_neg (Nat.not_lt.mpr h)]
  rfl

/-- The rule that follows on the bot's last reply; only a user's own message has one. -/
def followed (a : Asking) (isFirst : Bool) (topic message : Text) (b : Bot) :
    Except Fault (Option Match × Nat) :=
  if isFirst then Selection.matchPrevious b a.playbook a.user topic message else .ok (none, 0)

/-- The rule that answers, or the fault of a pattern. -/
def sought (a : Asking) (isFirst : Bool) (topic message : Text) (b : Bot) :
    Except Fault (Option Match) := do
  let (following, _) ← followed a isFirst topic message b
  if following.isSome then return following
  let (found, _) ← Selection.matchTrigger b a.playbook a.user topic message
  return found

/-- The bot after a rule has been looked for. -/
def noted (user : Text) (b : Bot) : Except Fault (Option Match) → Bot
  | .ok found => b.onRoster (·.setLastMatch user ((found.map (·.rule.pattern)).getD []))
  | .error _ => b

theorem run_tryOut (k : Nat) (e : Except Fault (Option Match × Nat)) (q : Process) : ∃ r,
    (tryOut k e).run.run q = (e.map Prod.fst, r) ∧ r.bot = q.bot ∧ r.draws = q.draws ∧
      r.places = q.places := by
  cases e with
  | error fault => exact ⟨q, rfl, rfl, rfl, rfl⟩
  | ok found =>
    obtain ⟨found, n⟩ := found
    have hplace : ∀ s : Step, ({ s with tried := s.tried + n } : Step).place = s.place := fun _ => rfl
    exact ⟨_, rfl, rfl, rfl, Answer.map_modify Step.place q.steps k hplace⟩

theorem run_recordMatch (user : Text) (k : Nat) (found : Option Match) (q : Process) : ∃ r,
    (recordMatch user k found).run.run q = (.ok (), r) ∧ r.bot = noted user q.bot (.ok found) ∧
      r.draws = q.draws ∧ r.places = q.places := by
  cases found with
  | none => exact ⟨_, rfl, rfl, rfl, rfl⟩
  | some m =>
    have hplace : ∀ s : Step, ({ s with
        matched := some m.rule.pattern, viaPrevious := m.viaPrevious } : Step).place = s.place :=
      fun _ => rfl
    exact ⟨_, rfl, rfl, rfl, Answer.map_modify Step.place q.steps k hplace⟩

/-- Looking for a rule does nothing but remember what was found. -/
theorem run_findRule_sought (a : Asking) (isFirst : Bool) (k : Nat) (topic message : Text)
    (q : Process) : ∃ r,
    (findRule a isFirst k topic message).run.run q = (sought a isFirst topic message q.bot, r) ∧
      r.bot = noted a.user q.bot (sought a isFirst topic message q.bot) ∧ r.draws = q.draws ∧
        r.places = q.places := by
  obtain ⟨p, hfollowing, hbot, hdraws, hplaces⟩ : ∃ r, (if isFirst then
        tryOut k (Selection.matchPrevious q.bot a.playbook a.user topic message)
      else pure none : Answering (Option Match)).run.run q =
        ((followed a isFirst topic message q.bot).map Prod.fst, r) ∧
        r.bot = q.bot ∧ r.draws = q.draws ∧ r.places = q.places := by
    cases isFirst with
    | true => exact run_tryOut k _ q
    | false => exact ⟨q, rfl, rfl, rfl, rfl⟩
  rw [findRule, run_bot, run_bind, hfollowing, sought]
  cases followed a isFirst topic message q.bot with
  | error fault => exact ⟨p, rfl, hbot, hdraws, hplaces⟩
  | ok first =>
    obtain ⟨following, n⟩ := first
    cases following with
    | some m =>
      obtain ⟨r, hrun, hrbot, hrdraws, hrplaces⟩ := run_recordMatch a.user k (some m) p
      refine ⟨r, ?_, hrbot.trans (by rw [hbot]; rfl), hrdraws.trans hdraws, hrplaces.trans hplaces⟩
      dsimp only [Except.map]
      simp only [Option.isSome_some, if_true]
      rw [pure_bind, run_bind, hrun]
      rfl
    | none =>
      obtain ⟨p', htrigger, hbot', hdraws', hplaces'⟩ := run_tryOut k
        (Selection.matchTrigger q.bot a.playbook a.user topic message) p
      dsimp only [Except.map]
      simp only [Option.isSome_none, Bool.false_eq_true, if_false]
      rw [run_bind, htrigger]
      cases Selection.matchTrigger q.bot a.playbook a.user topic message with
      | error fault =>
        exact ⟨p', rfl, hbot'.trans hbot, hdraws'.trans hdraws, hplaces'.trans hplaces⟩
      | ok found =>
        obtain ⟨r, hrun, hrbot, hrdraws, hrplaces⟩ := run_recordMatch a.user k found.1 p'
        refine ⟨r, ?_, hrbot.trans (by rw [hbot', hbot]; rfl), hrdraws.trans (hdraws'.trans hdraws),
          hrplaces.trans (hplaces'.trans hplaces)⟩
        dsimp only [Except.map]
        rw [run_bind, hrun]
        rfl

theorem faultsOfPatterns_sought (a : Asking) (isFirst : Bool) (topic message : Text) (b : Bot) :
    FaultsOfPatterns (sought a isFirst topic message b) := by
  refine FaultsOfPatterns.bind ?_ fun following => ?_
  · rw [followed]
    split
    · exact Selection.faultsOfPatterns_matchPrevious topic message b _ _
    · exact .ok _
  · obtain ⟨following, n⟩ := following
    dsimp only
    split
    · exact .ok _
    · exact (Selection.faultsOfPatterns_matchTrigger topic message b _ _).bind fun found => .ok _

/-- The topic in which the user is answered, if there is one. -/
def topicFor (a : Asking) (b : Bot) : Option Text :=
  let topic := (b.roster.var? a.user "topic").getD Topic.default
  if a.playbook.topics.has topic then some topic
  else if a.playbook.topics.has Topic.default then some Topic.default else none

/-- The bot once the user is in a topic that is there. -/
def settled (a : Asking) (b : Bot) : Bot :=
  if a.playbook.topics.has ((b.roster.var? a.user "topic").getD Topic.default) then b
  else b.onRoster (·.setVar a.user "topic" (some Topic.default))

theorem run_currentTopic_eq (a : Asking) (q : Process) :
    (currentTopic a false).run.run q =
      (.ok (topicFor a q.bot), { q with bot := settled a q.bot }) := by
  rw [topicFor, settled]
  simp only [currentTopic, Bool.false_eq_true, if_false]
  rw [run_bot]
  split
  · rfl
  · rfl

end Answer

namespace Mirrors

open Answer

variable {a b : Asking} {call call' : Answerer} {depth depth' : Nat}

theorem finish (hR : Bot.Unread b.user R) (h : SameMarkup a b)
    (hcall : ∀ message, Mirrors R bad (call (depth + 1) false message)
      (call' (depth' + 1) false message)) (topic message : Text) (found : Option Match) :
    Mirrors R bad (finish a call depth topic message found)
      (Answer.finish b call' depth' topic message found) := by
  cases found with
  | none => exact setback hR _
  | some m =>
    have hexpand : ∀ t, Mirrors R bad
        (Expansion.expand a call ⟨depth, message, topic, m.stars, m.botStars⟩ t)
        (Expansion.expand b call' ⟨depth', message, topic, m.stars, m.botStars⟩ t) :=
      expand hR h rfl rfl hcall
    refine ((rules R bad).speak hexpand hcall m.rule).bind fun text _ => ?_
    split
    · exact setback hR _
    · exact hexpand text

end Mirrors

/-! ### The first answer -/

/-- The run ended before a rule was looked for, because there is no topic, or while it was, because a
pattern is at fault. -/
def Early (a : Asking) (p : Process) (result : Except Fault Text) (q : Process) : Prop :=
  (Answer.topicFor a p.bot = none ∧ q.steps = p.steps ∧
    result = setbackResult q.bot .noDefaultTopic) ∨
  ∃ pattern cause, result = .error (.pattern pattern cause)

/-- Two who are asked a message at their depths, and what they have in common. Bots are related by the
second relation as soon as both have looked for a rule. -/
structure Parallel (R₀ R : Bot → Bot → Prop) (bad : StepKind) (a b : Asking) (depth depth' : Nat)
    (message : Text) : Prop where
  before : Bot.Unread b.user R₀
  after : Bot.Unread b.user R
  learn : ∀ {c d}, R₀ c d → ∀ pattern,
    R (c.onRoster (·.setLastMatch b.user pattern)) (d.onRoster (·.setLastMatch b.user pattern))
  markup : SameMarkup a b
  within : depth ≤ a.playbook.depth
  within' : depth' ≤ b.playbook.depth
  topicFor : ∀ {c d}, R₀ c d →
    (∀ topic, Answer.topicFor b d = some topic → ¬ bad depth' topic false) →
      Answer.topicFor a c = Answer.topicFor b d ∧ R₀ (Answer.settled a c) (Answer.settled b d)
  sought : ∀ {c d}, R₀ c d → ∀ topic, ¬ bad depth' topic false →
    Answer.sought a (depth == 0) topic message c = Answer.sought b (depth' == 0) topic message d

open Answer

variable {a b : Asking} {call call' : Answerer} {depth depth' : Nat} {message : Text}

/-- An answer never takes a step back. -/
theorem stays_respond (hdepth : depth ≤ a.playbook.depth) (hfinish : ∀ topic found,
      Moves (fun q r => q.Strays bad → r.Strays bad) (finish a call depth topic message found)) :
    Moves (fun q r => q.Strays bad → r.Strays bad) (respond a call depth false message) := by
  intro q hq
  rw [respond_eq a call hdepth, run_bind, run_currentTopic_eq]
  dsimp only
  cases topicFor a q.bot with
  | none =>
    dsimp only
    rw [run_setback]
    exact hq
  | some topic =>
    dsimp only
    rw [run_openStep, run_bind]
    obtain ⟨r, hrun, -, -, hplaces⟩ := run_findRule_sought a (depth == 0) q.steps.length topic message
      { q with bot := settled a q.bot, steps := q.steps ++ [{ depth, topic, message }] }
    rw [hrun]
    have hr : r.Strays bad := by
      obtain ⟨s, hs, hbad⟩ := hq
      exact Strays.of_places hplaces.symm ⟨s, List.mem_append_left _ hs, hbad⟩
    cases sought a (depth == 0) topic message (settled a q.bot) with
    | error fault => exact hr
    | ok found => exact hfinish topic found r hr

/-- Two answers from processes that are related come to the same, and the processes after them are as
close as they can be if a rule was looked for. -/
structure Agree (R₀ R : Bot → Bot → Prop) (a : Asking) (p : Process)
    (x y : Except Fault Text × Process) : Prop where
  result : x.1 = y.1
  process : x.2.Beside R y.2 ∨ x.2.Beside R₀ y.2 ∧ Early a p x.1 x.2

/-- Two answers agree, unless the second one strays. -/
theorem Parallel.respond {R₀ R : Bot → Bot → Prop}
    (h : Parallel R₀ R bad a b depth depth' message)
    (hcall : ∀ message, Mirrors R bad (call (depth + 1) false message)
      (call' (depth' + 1) false message)) {p q : Process} (hpq : p.Beside R₀ q)
    (hstrays : ¬ ((Answer.respond b call' depth' false message).run.run q).2.Strays bad) :
    Agree R₀ R a p ((Answer.respond a call depth false message).run.run p)
      ((Answer.respond b call' depth' false message).run.run q) := by
  rw [respond_eq b call' h.within', run_bind, run_currentTopic_eq] at hstrays ⊢
  rw [respond_eq a call h.within, run_bind, run_currentTopic_eq]
  dsimp only at hstrays ⊢
  cases htopic : Answer.topicFor b q.bot with
  | none =>
    obtain ⟨hsame, hsettled⟩ := h.topicFor hpq.bot fun topic hsome => by
      rw [htopic] at hsome
      cases hsome
    rw [htopic] at hsame
    rw [hsame]
    dsimp only
    rw [run_setback, run_setback]
    exact ⟨h.before.setback hsettled _, Or.inr ⟨⟨hsettled, hpq.draws⟩, Or.inl ⟨hsame, rfl, rfl⟩⟩⟩
  | some topic =>
    rw [htopic] at hstrays
    dsimp only at hstrays ⊢
    rw [run_openStep, run_bind] at hstrays ⊢
    obtain ⟨r, hrun, hbot, hdraws, hplaces⟩ := run_findRule_sought b (depth' == 0) q.steps.length
      topic message
      { q with bot := settled b q.bot, steps := q.steps ++ [{ depth := depth', topic, message }] }
    rw [hrun] at hstrays ⊢
    dsimp only at hbot hdraws hplaces hstrays ⊢
    have hfinish (found : Option Match) :=
      Mirrors.finish h.after h.markup hcall topic message found
    have hopened : ¬ r.Strays bad := by
      cases hsought : Answer.sought b (depth' == 0) topic message (settled b q.bot) with
      | error fault =>
        rw [hsought] at hstrays
        exact hstrays
      | ok found =>
        rw [hsought] at hstrays
        exact fun hr => hstrays ((hfinish found).stays r hr)
    have hgood : ¬ bad depth' topic false := fun hbad => hopened (Strays.of_places hplaces.symm
      ⟨_, List.mem_append_right _ (List.mem_singleton_self _), hbad⟩)
    obtain ⟨hsame, hsettled⟩ := h.topicFor hpq.bot fun other hother => by
      rw [htopic] at hother
      cases hother
      exact hgood
    rw [hsame, htopic]
    dsimp only
    rw [run_openStep, run_bind]
    obtain ⟨r', hrun', hbot', hdraws', -⟩ := run_findRule_sought a (depth == 0) p.steps.length topic
      message { p with bot := settled a p.bot, steps := p.steps ++ [{ depth, topic, message }] }
    rw [hrun']
    dsimp only at hbot' hdraws' ⊢
    rw [h.sought hsettled topic hgood] at hbot' ⊢
    cases hsought : Answer.sought b (depth' == 0) topic message (settled b q.bot) with
    | error fault =>
      rw [hsought] at hbot hbot'
      refine ⟨rfl, Or.inr ⟨⟨?_, ?_⟩, Or.inr ?_⟩⟩
      · rw [hbot, hbot']
        exact hsettled
      · rw [hdraws, hdraws']
        exact hpq.draws
      · obtain ⟨pattern, cause, rfl⟩ := faultsOfPatterns_sought _ _ _ _ _ fault hsought
        exact ⟨pattern, cause, rfl⟩
    | ok found =>
      rw [hsought] at hbot hbot' hstrays
      have hfound : r'.Beside R r := by
        refine ⟨?_, ?_⟩
        · rw [hbot, hbot', noted, noted, h.markup.user]
          exact h.learn hsettled _
        · rw [hdraws, hdraws']
          exact hpq.draws
      obtain ⟨hresult, hprocess⟩ := (hfinish found).same r' r hfound hstrays
      exact ⟨hresult, Or.inl hprocess⟩

/-- An answer mirrors another one if the relation of bots need not get any closer. -/
theorem Parallel.mirrors (h : Parallel R R bad a b depth depth' message)
    (hcall : ∀ message, Mirrors R bad (call (depth + 1) false message)
      (call' (depth' + 1) false message)) :
    Mirrors R bad (Answer.respond a call depth false message)
      (Answer.respond b call' depth' false message) where
  same p q hpq hstrays := by
    obtain ⟨hresult, hprocess⟩ := h.respond hcall hpq hstrays
    exact ⟨hresult, hprocess.elim id And.left⟩
  stays := stays_respond h.within' fun topic found =>
    (Mirrors.finish h.after h.markup hcall topic message found).stays

end Dialogue
