import Dialogue.Proofs.Depth
import Dialogue.Proofs.Redirect

/-! Chains of redirects. Each link takes one step and goes one deeper, so a chain is followed to its
end if it has no more links than the limit allows, and otherwise every level is used up. -/
namespace Dialogue

open Selection

/-! ### Literal triggers of a topic -/

/-- A topic that takes no rules from other topics. Its triggers have no weights or levels, and what
the scan takes for words and nothing else is that. -/
structure Unmixed (s : Script) (name : Text) (topic : Topic) : Prop where
  found : s.topics.find? name = some topic
  includes : topic.includes = []
  inherits : topic.inherits = []
  weight : ∀ r ∈ topic.rules, Weight.first? r.pattern = none
  level : ∀ r ∈ topic.rules, Entry.readLevel r.pattern = none
  verbatim : ∀ r ∈ topic.rules, Shape.scan {} false r.pattern = {} →
    Pattern.isVerbatim r.pattern ∧ Text.collapse r.pattern = r.pattern

namespace Unmixed

variable {s : Script} {name : Text} {topic : Topic}

/-- Literal triggers do not stand in each other's way. -/
theorem of_literals (found : s.topics.find? name = some topic) (includes : topic.includes = [])
    (inherits : topic.inherits = []) (hliteral : ∀ r ∈ topic.rules, IsLiteral r.pattern) :
    Unmixed s name topic := by
  refine ⟨found, includes, inherits, ?_, ?_, ?_⟩
  · intro r hr
    exact Weight.first?_of_not_mem ((hliteral r hr).not_mem (by decide))
  · intro r hr
    exact (hliteral r hr).readLevel
  · intro r hr _
    exact ⟨(hliteral r hr).isVerbatim, (hliteral r hr).words⟩

variable (h : Unmixed s name topic)

include h

/-- What is tried before a literal trigger matches nothing but its own words. -/
theorem passed_of_lt {t : Text} (ht : IsLiteral t) {r : Rule} (hr : r ∈ topic.rules)
    (hne : r.pattern ≠ t) (hlt : Entry.order (Entry.plain none r.pattern) (Entry.plain none t) = .lt)
    (sur : Surroundings) (strict : Bool) : tryPattern sur strict r.pattern t = .ok none := by
  have hatomic := (Entry.order_plain_lt ht.scan hlt).1
  obtain ⟨hverbatim, hwords⟩ := h.verbatim r hr hatomic
  rw [tryPattern_of_isVerbatim sur strict hverbatim (h.weight r hr), hwords, if_neg hne]

variable (hs : s.Straight)

include hs

theorem previous {r : Rule} (hr : r ∈ topic.rules) : r.previous = none :=
  hs.previous _ (Table.mem_entries_of_find? h.found) r hr

theorem entries_eq (depth : Nat) :
    s.topics.entries depth name = topic.rules.map fun r => Entry.plain none r.pattern := by
  have hpool : s.topics.pool depth name = topic.rules.map Rule.pattern := by
    have hkept : topic.rules.filter (·.previous.isNone) = topic.rules := by
      rw [List.filter_eq_self]
      intro r hr
      rw [h.previous hs hr]
      rfl
    simp [Topics.pool, Topics.poolFrom, h.found, h.includes, h.inherits, hkept]
  rw [Topics.entries, hpool, List.map_map]
  apply List.map_congr_left
  intro r hr
  exact Entry.ofText_of_none (h.level r hr) (h.weight r hr)

/-- The topic itself owns its triggers. -/
theorem owner_eq (depth : Nat) {r : Rule} (hr : r ∈ topic.rules) :
    ∃ position, s.topics.owner? depth name r.pattern = some (name, position) := by
  have howns : (topic.owns? r.pattern).isSome = true := by
    rw [Topic.owns?, List.findIdx?_isSome, List.any_eq_true]
    refine ⟨r, hr, ?_⟩
    simp [h.previous hs hr]
  obtain ⟨position, hposition⟩ := Option.isSome_iff_exists.mp howns
  refine ⟨position, ?_⟩
  simp only [Topics.owner?, h.found, hposition]

theorem rule_mem {depth : Nat} {pattern owner : Text} {position : Nat} {m : Rule}
    (hpattern : ∃ r ∈ topic.rules, r.pattern = pattern)
    (howner : s.topics.owner? depth name pattern = some (owner, position))
    (hrule : s.topics.rule? owner position = some m) : m ∈ topic.rules := by
  obtain ⟨r, hr, rfl⟩ := hpattern
  obtain ⟨place, hown⟩ := h.owner_eq hs depth hr
  have hsame := hown.symm.trans howner
  rw [Option.some.injEq, Prod.mk.injEq] at hsame
  rw [← hsame.1, Topics.rule?, h.found] at hrule
  exact List.mem_of_getElem? hrule

/-- Whatever the message is compared with, its own trigger is the first that matches. -/
theorem firstTrigger_literal (settings : Settings) (depth : Nat) (sur : Surroundings) (strict : Bool)
    {t : Text} (ht : IsLiteral t) (hr : ∃ r ∈ topic.rules, r.pattern = t) : ∃ m n,
    firstTrigger (Playbook.build settings depth s) sur strict name t 0
        (((Playbook.build settings depth s).ranked.find? name).getD []) = .ok (some m, n) ∧
      m.rule ∈ topic.rules ∧ m.rule.pattern = t := by
  obtain ⟨r, hmem, rfl⟩ := hr
  have hentries := h.entries_eq hs depth
  have hown : Entry.plain none r.pattern ∈ s.topics.entries depth name := by
    rw [hentries]
    exact List.mem_map_of_mem hmem
  obtain ⟨position, howner⟩ := h.owner_eq hs depth hmem
  have howned : Owned (Playbook.build settings depth s) name r.pattern :=
    Option.isSome_iff_exists.mpr ⟨_, howner⟩
  have hself := tryPattern_literal sur strict ht (h.weight r hmem)
  have hfits : tryPattern sur strict r.pattern r.pattern ≠ .ok none := by
    rw [hself]
    exact fun heq => nomatch heq
  obtain ⟨e, he, hahead, hdecides⟩ := tried_decides hown howned hfits
  rw [hentries, List.mem_map] at he
  obtain ⟨other, hother, rfl⟩ := he
  by_cases hne : other.pattern = r.pattern
  · rcases hdecides with ⟨m, n, hanswers, hresult⟩ | ⟨fault, hfault, -⟩
    · obtain ⟨place, hplace, hrule⟩ := hanswers.owner
      have hpattern := hanswers.pattern_eq.trans hne
      exact ⟨m, n, hresult, h.rule_mem hs ⟨other, hother, rfl⟩ hplace hrule, hpattern⟩
    · change tryPattern sur strict other.pattern r.pattern = _ at hfault
      rw [hne, hself] at hfault
      cases hfault
  · have hpassed := h.passed_of_lt ht hother hne (hahead hne) sur strict
    rcases hdecides with ⟨m, -, hanswers, -⟩ | ⟨fault, hfault, -⟩
    · exact nomatch hpassed.symm.trans hanswers.fits
    · exact nomatch hpassed.symm.trans hfault

open Answer

/-- Nothing else answers a message that is a literal trigger, be it the user's own or not. -/
theorem sought_literal (settings : Settings) (depth : Nat) (b : Bot) (user : Text) (isFirst : Bool)
    {t : Text} (ht : IsLiteral t) (hr : ∃ r ∈ topic.rules, r.pattern = t) : ∃ m,
    sought ⟨user, Playbook.build settings depth s⟩ isFirst name t b = .ok (some m) ∧
      m.rule ∈ topic.rules ∧ m.rule.pattern = t := by
  have hfollowed : followed ⟨user, Playbook.build settings depth s⟩ isFirst name t b =
      .ok (none, 0) := by
    rw [followed]
    split
    · exact matchPrevious_of_looksAhead (hs.looksAhead settings depth) b user name t
    · rfl
  obtain ⟨m, n, hfirst, hrule⟩ := h.firstTrigger_literal hs settings depth
    (surroundings b (Playbook.build settings depth s) user) b.settings.strict ht hr
  refine ⟨m, ?_, hrule⟩
  rw [sought, hfollowed]
  simp only [matchTrigger, hfirst]
  rfl

end Unmixed

/-! ### Chains -/

namespace Topic

/-- The literal text is a trigger of the topic, and all rules with this trigger respond alike. -/
structure Responds (topic : Topic) (t : Text) (response : Rule → Prop) : Prop where
  literal : IsLiteral t
  trigger : ∃ r ∈ topic.rules, r.pattern = t
  rule : ∀ r ∈ topic.rules, r.pattern = t → response r

/-- Where all triggers are distinct, one rule responds. -/
theorem Responds.of_nodup {topic : Topic} (hnodup : (topic.rules.map Rule.pattern).Nodup)
    {t : Text} (ht : IsLiteral t) {r : Rule} (hr : r ∈ topic.rules) (hpattern : r.pattern = t)
    {response : Rule → Prop} (hresponse : response r) : topic.Responds t response where
  literal := ht
  trigger := ⟨r, hr, hpattern⟩
  rule other hother hother' := by
    rw [List.inj_on_of_nodup_map hnodup hother hr (hother'.trans hpattern.symm)]
    exact hresponse

/-- Triggers that lead from one to the next by their only response, counted by the redirects. -/
inductive Chain (topic : Topic) : Nat → Text → Text → Prop where
  | stop {t : Text} : IsLiteral t → Chain topic 0 t t
  | link {n : Nat} {t u v : Text} : topic.Responds t (·.LeadsTo u) → Chain topic n u v →
      Chain topic (n + 1) t v

namespace Chain

variable {topic : Topic} {m n : Nat} {t u v : Text}

theorem literal (h : topic.Chain n t v) : IsLiteral t := by
  cases h with
  | stop ht => exact ht
  | link ht _ => exact ht.literal

theorem append (h : topic.Chain m t u) (k : topic.Chain n u v) : topic.Chain (m + n) t v := by
  induction h with
  | stop _ =>
    rw [Nat.zero_add]
    exact k
  | link ht _ ih =>
    rw [Nat.add_right_comm]
    exact .link ht (ih k)

theorem take (h : topic.Chain n t v) (hle : m ≤ n) : ∃ u, topic.Chain m t u := by
  induction h generalizing m with
  | stop ht =>
    rw [Nat.le_zero.mp hle]
    exact ⟨_, .stop ht⟩
  | @link n t w v ht rest ih =>
    cases m with
    | zero => exact ⟨t, .stop ht.literal⟩
    | succ m =>
      obtain ⟨u, hu⟩ := ih (Nat.le_of_succ_le_succ hle)
      exact ⟨u, .link ht hu⟩

theorem laps (h : topic.Chain n t t) (count : Nat) : topic.Chain (count * n) t t := by
  induction count with
  | zero =>
    rw [Nat.zero_mul]
    exact .stop h.literal
  | succ count ih =>
    rw [Nat.succ_mul]
    exact ih.append h

/-- Who comes back can go on for any number of redirects. -/
theorem endless (h : topic.Chain (n + 1) t t) (m : Nat) : ∃ u, topic.Chain m t u :=
  (h.laps m).take (Nat.le_mul_of_pos_right m (Nat.succ_pos n))

end Chain

end Topic

/-! ### Runs -/

open Answer Answering Expansion Markup

namespace Bot

theorem topicOf_setLastMatch (b : Bot) (user pattern : Text) :
    (b.onRoster (·.setLastMatch user pattern)).topicOf user = b.topicOf user := by
  calc (b.onRoster (·.setLastMatch user pattern)).topicOf user
      = ((b.roster.profile user).vars.find? "topic").getD Topic.default := topicOf_alter _
    _ = (b.onRoster (·.welcome user)).topicOf user := topicOf_welcome.symm
    _ = b.topicOf user := b.roster.getD_var?_welcome user

/-- The settings are still the same, and so is the topic that the user is in. -/
structure Keeps (b : Bot) (user : Text) (c : Bot) : Prop where
  settings : c.settings = b.settings
  topic : c.topicOf user = b.topicOf user

variable {b c : Bot} {user : Text}

theorem Keeps.setLastMatch (h : b.Keeps user c) (pattern : Text) :
    b.Keeps user (c.onRoster (·.setLastMatch user pattern)) where
  settings := h.settings
  topic := (c.topicOf_setLastMatch user pattern).trans h.topic

/-- Whatever else has been done, the answer is this result after so many more steps. -/
def Comes (b : Bot) (user : Text) (x : Answering Text) (steps : Nat) (result : Except Fault Text) :
    Prop :=
  ∀ q : Process, b.Keeps user q.bot →
    ∃ r, x.run.run q = (result, r) ∧ r.steps.length = q.steps.length + steps

end Bot

/-- A redirect passes on the result as it is. -/
def IsFinal (result : Except Fault Text) : Prop :=
  ∀ text, result = .ok text → text ≠ [] ∧ Settled text

theorem run_passOn {result : Except Fault Text} (hfinal : IsFinal result) {a : Asking}
    {call : Answerer} {turn : Turn} {x : Answering Text} {q r : Process}
    (hx : x.run.run q = (result, r)) :
    (x >>= passOn a call turn).run.run q = (result, r) := by
  rw [run_bind, hx]
  cases result with
  | error fault => rfl
  | ok text =>
    obtain ⟨hne, hsettled⟩ := hfinal text rfl
    dsimp only
    rw [passOn, if_neg hne, run_expand_settled hsettled]

theorem comes_tooDeep {a : Asking} {level : Nat} (hlevel : a.playbook.depth < level) (b : Bot)
    (t : Text) : b.Comes a.user (resolve a level false t) 0 (setbackResult b .tooDeep) := by
  intro q hq
  refine ⟨q, ?_, rfl⟩
  rw [(bounded a).deepest level false t q hlevel, setbackResult_congr hq.settings]

namespace Unmixed

variable {s : Script} {name : Text} {topic : Topic} (h : Unmixed s name topic) (hs : s.Straight)
  (settings : Settings) {depth level : Nat} {b : Bot} {user t u v text : Text}

include h hs

/-- A literal trigger is found in one step, and nothing but the record has changed. -/
theorem run_level (hb : b.topicOf user = name) (hlevel : level ≤ depth) {response : Rule → Prop}
    (ht : topic.Responds t response) {q : Process} (hq : b.Keeps user q.bot) : ∃ m r,
    (∀ call, (respond ⟨user, Playbook.build settings depth s⟩ call level false t).run.run q =
      (finish ⟨user, Playbook.build settings depth s⟩ call level name t (some m)).run.run r) ∧
    response m.rule ∧ b.Keeps user r.bot ∧ r.steps.length = q.steps.length + 1 := by
  obtain ⟨m, hsought, hmem, hpattern⟩ :=
    h.sought_literal hs settings depth q.bot user (level == 0) ht.literal ht.trigger
  have htopic : q.bot.topicOf user = name := hq.topic.trans hb
  have hthere : (Playbook.build settings depth s).topics.has name = true := by
    show (s.topics.find? name).isSome = true
    rw [h.found]
    rfl
  obtain ⟨r, hrun, hbot, hsteps⟩ :=
    run_respond_found (a := ⟨user, Playbook.build settings depth s⟩) hlevel htopic hthere hsought
  refine ⟨m, r, hrun, ht.rule m.rule hmem hpattern, ?_, hsteps⟩
  rw [hbot]
  exact hq.setLastMatch m.rule.pattern

theorem comes_reply (hb : b.topicOf user = name) (hlevel : level ≤ depth)
    (ht : topic.Responds t (·.Speaks text)) :
    b.Comes user (resolve ⟨user, Playbook.build settings depth s⟩ level false t) 1 (.ok text) := by
  intro q hq
  obtain ⟨m, r, hrun, hspeaks, -, hsteps⟩ := h.run_level hs settings hb hlevel ht hq
  refine ⟨{ r with draws := r.draws.tail }, ?_, hsteps⟩
  rw [resolve_eq_respond, hrun, run_finish_reply hspeaks]

/-- A redirect takes a step of its own before its target is answered one deeper. -/
theorem comes_redirect (hb : b.topicOf user = name) (hlevel : level ≤ depth)
    (ht : topic.Responds t (·.LeadsTo u)) (hu : IsLiteral u) {steps : Nat}
    {result : Except Fault Text} (hfinal : IsFinal result)
    (hnext : b.Comes user (resolve ⟨user, Playbook.build settings depth s⟩ (level + 1) false u)
      steps result) :
    b.Comes user (resolve ⟨user, Playbook.build settings depth s⟩ level false t) (steps + 1)
      result := by
  intro q hq
  obtain ⟨m, r, hrun, hleads, hkeeps, hsteps⟩ := h.run_level hs settings hb hlevel ht hq
  obtain ⟨r', htarget, hsteps'⟩ := hnext { r with draws := r.draws.tail } hkeeps
  refine ⟨r', ?_, ?_⟩
  · rw [resolve_eq_respond, hrun, run_finish_redirect hleads hu]
    exact run_passOn hfinal htarget
  · rw [hsteps', hsteps]
    omega

/-- By induction on the chain, whose links each take one of the levels that are left. -/
theorem comes_end (hb : b.topicOf user = name) {n : Nat} (hchain : topic.Chain n t v)
    (hv : topic.Responds v (·.Speaks text)) (hlevel : level + n ≤ depth) :
    b.Comes user (resolve ⟨user, Playbook.build settings depth s⟩ level false t) (n + 1)
      (.ok text) := by
  have hfinal : IsFinal (.ok text) := by
    obtain ⟨r, hr, hrv⟩ := hv.trigger
    have hspeaks := hv.rule r hr hrv
    rintro _ ⟨⟩
    exact ⟨hspeaks.ne, hspeaks.settled⟩
  induction hchain generalizing level with
  | stop _ => exact h.comes_reply hs settings hb hlevel hv
  | link ht hrest ih =>
    exact h.comes_redirect hs settings hb (by omega) ht hrest.literal hfinal (ih hv (by omega))

/-- By induction on the chain, which ends one level past the limit. -/
theorem comes_sunk (hb : b.topicOf user = name) {n : Nat} (hchain : topic.Chain n t v)
    (hfinal : IsFinal (setbackResult b .tooDeep)) (hlevel : level + n = depth + 1) :
    b.Comes user (resolve ⟨user, Playbook.build settings depth s⟩ level false t) n
      (setbackResult b .tooDeep) := by
  induction hchain generalizing level with
  | stop _ =>
    have hpast : depth < level := by
      omega
    exact comes_tooDeep (a := ⟨user, Playbook.build settings depth s⟩) hpast b _
  | link ht hrest ih =>
    exact h.comes_redirect hs settings hb (by omega) ht hrest.literal hfinal (ih (by omega))

end Unmixed

/-! ### Replies -/

namespace Bot

/-- The reply is this text, after so many steps. -/
def Says (b : Bot) (draws : List Nat) (user message reply : Text) (steps : Nat) : Prop :=
  ∃ e, (b.reply draws user message).result = .ok e ∧ e.reply = reply ∧ e.steps.length = steps

/-- After so many steps the redirects have gone too deep, which is the reply unless the bot
throws. -/
structure Sinks (b : Bot) (p : Playbook) (draws : List Nat) (user message : Text) (steps : Nat) :
    Prop where
  told : b.settings.throws = false →
    b.Says draws user message "ERR: Deep Recursion Detected" steps
  thrown : b.settings.throws = true → (b.reply draws user message).result =
    .error (.setback .tooDeep "ERR: Deep Recursion Detected")
  steps : (b.answered p draws user message).2.steps.length = steps

variable {b : Bot} {p : Playbook} {draws : List Nat} {user message t text : Text} {steps : Nat}

theorem Comes.answered {result : Except Fault Text} (habsent : p.topics.has Topic.begin = false)
    (hform : p.canon.format false message = t)
    (h : b.Comes user (resolve ⟨user, p⟩ 0 false t) steps result) (draws : List Nat) :
    ∃ q, b.answered p draws user message = (result, q) ∧ q.steps.length = steps := by
  obtain ⟨q, hrun, hsteps⟩ := h { bot := b.onRoster (·.welcome user), draws }
    ⟨rfl, b.roster.getD_var?_welcome user⟩
  refine ⟨q, ?_, hsteps.trans (Nat.zero_add steps)⟩
  rw [Bot.answered, hform, answer_eq_resolve habsent]
  exact hrun

theorem says_of_answered (hp : b.playbook = some p) {q : Process}
    (h : b.answered p draws user message = (.ok text, q)) (hsteps : q.steps.length = steps) :
    b.Says draws user message text steps := by
  rw [Says, reply_of_text hp h]
  exact ⟨_, rfl, rfl, hsteps⟩

/-- Whatever is the reply then, it takes as many steps. -/
theorem Sinks.steps_eq (h : b.Sinks p draws user message steps) {other : Nat}
    (hother : b.Says draws user message text other) : other = steps := by
  obtain ⟨e, he, -, hlength⟩ := hother
  cases hthrows : b.settings.throws with
  | false =>
    obtain ⟨e', he', -, hlength'⟩ := h.told hthrows
    rw [he, Except.ok.injEq] at he'
    rw [← hlength, he', hlength']
  | true =>
    rw [h.thrown hthrows] at he
    cases he

theorem settled_tooDeep : Settled ({} : Wording).tooDeep :=
  settled_of_not_mem (by decide) (by decide) (by decide) (by decide) (by decide)

theorem isFinal_tooDeep (hwording : b.settings.wording = {}) :
    IsFinal (setbackResult b .tooDeep) := by
  intro text htext
  rw [setbackResult, hwording] at htext
  split at htext
  · cases htext
  · cases htext
    exact ⟨by decide, settled_tooDeep⟩

theorem sinks_of_answered (hp : b.playbook = some p) (hwording : b.settings.wording = {})
    {q : Process} (h : b.answered p draws user message = (setbackResult b .tooDeep, q))
    (hsteps : q.steps.length = steps) : b.Sinks p draws user message steps := by
  refine ⟨fun hthrows => ?_, fun hthrows => ?_, ?_⟩
  · rw [setbackResult, hwording, hthrows] at h
    exact says_of_answered hp h hsteps
  · rw [setbackResult, hwording, hthrows] at h
    rw [reply_of_fault hp h]
    rfl
  · rw [h]
    exact hsteps

/-- How far the redirects between the literal triggers of a topic are followed. -/
structure FollowsChains (b : Bot) (p : Playbook) (user : Text) (topic : Topic) (limit : Nat) :
    Prop where
  /-- The text of the trigger is such a message itself, in ASCII or where punctuation spares it. -/
  form : ∀ t, IsLiteral t →
    (if p.canon.utf8 then p.canon.punctuation.strip t = t else ∀ c ∈ t, c.toNat < 0x80) →
    p.canon.format false t = t
  /-- A chain is followed to its reply exactly if the limit allows as many redirects. -/
  reply : ∀ {n t v text}, topic.Chain n t v → topic.Responds v (·.Speaks text) →
    ∀ draws message, p.canon.format false message = t →
      (b.Says draws user message text (n + 1) ↔ n ≤ limit)
  beyond : ∀ {n t v}, topic.Chain n t v → limit < n →
    ∀ draws message, p.canon.format false message = t → b.Sinks p draws user message (limit + 1)
  cycle : ∀ {n t}, topic.Chain (n + 1) t t →
    ∀ draws message, p.canon.format false message = t → b.Sinks p draws user message (limit + 1)

end Bot

section Limit

variable {settings : Settings} {depth : Nat} {s : Script} {p : Playbook} {name : Text}
  {topic : Topic} {b : Bot} {user : Text}

/-- Redirects from one literal trigger of a topic to the next are followed exactly as far as the
limit of the depth allows, with one step for each trigger that is reached. -/
theorem depth_limit_exact (hp : Playbook.ofScript settings depth s = .ok p) (hs : s.Straight)
    (h : Unmixed s name topic) (hb : b.playbook = some p) (huser : b.topicOf user = name)
    (hwording : b.settings.wording = {}) : b.FollowsChains p user topic depth := by
  obtain rfl := Playbook.eq_build hp
  have hbeyond : ∀ {n t v}, topic.Chain n t v → depth < n → ∀ draws message,
      (Playbook.build settings depth s).canon.format false message = t →
      b.Sinks (Playbook.build settings depth s) draws user message (depth + 1) := by
    intro n t v hchain hn draws message hform
    obtain ⟨u, hpart⟩ := hchain.take (Nat.succ_le_of_lt hn)
    have hcomes := h.comes_sunk hs settings huser hpart (Bot.isFinal_tooDeep hwording)
      (Nat.zero_add (depth + 1))
    obtain ⟨q, hanswered, hsteps⟩ := hcomes.answered hs.absent hform draws
    exact Bot.sinks_of_answered hb hwording hanswered hsteps
  have hsubstitution := Playbook.entries_substitution (congrArg Table.entries hs.substitutions)
    settings depth
  refine ⟨fun t ht hform => Canon.format_literal _ hsubstitution ht hform, ?_, hbeyond, ?_⟩
  · intro n t v text hchain hv draws message hform
    constructor
    · intro hsays
      by_contra hn
      have hsinks := hbeyond hchain (Nat.lt_of_not_le hn) draws message hform
      have hsteps := hsinks.steps_eq hsays
      omega
    · intro hn
      have hlevel : 0 + n ≤ depth := by
        omega
      have hcomes := h.comes_end hs settings huser hchain hv hlevel
      obtain ⟨q, hanswered, hsteps⟩ := hcomes.answered hs.absent hform draws
      exact Bot.says_of_answered hb hanswered hsteps
  · intro n t hchain draws message hform
    obtain ⟨u, hlong⟩ := hchain.endless (depth + 1)
    exact hbeyond hlong (Nat.lt_succ_self depth) draws message hform

end Limit

def stairs : List Rule :=
  [{ pattern := "one", redirect := some "two" }, { pattern := "two", redirect := some "three" },
    { pattern := "three", replies := ["Up here."] }, { pattern := "left", redirect := some "right" },
    { pattern := "right", redirect := some "left" }, { pattern := "*", replies := ["Where?"] }]

/-- A bot that follows one redirect. -/
def climber : Bot := { playbook := some (Playbook.build {} 1 (single stairs)) }

/-- One redirect leads to the reply, two go too deep, and so do those that lead back. -/
theorem stairs_limit :
    climber.Says [] "user" "Two?" "Up here." 2 ∧
    climber.Sinks (Playbook.build {} 1 (single stairs)) [] "user" "One!" 2 ∧
    climber.Sinks (Playbook.build {} 1 (single stairs)) [] "user" "left" 2 := by
  have hlenient : ({} : Settings).strict = false := rfl
  have hp := Playbook.ofScript_of_lenient hlenient 1 (single stairs)
  have hunmixed : Unmixed (single stairs) "random" { rules := stairs } :=
    ⟨rfl, rfl, rfl, by decide, by decide, by decide⟩
  have hb : climber.playbook = some (Playbook.build {} 1 (single stairs)) := rfl
  have huser : climber.topicOf "user" = "random" := rfl
  have hlimit := depth_limit_exact hp (straight_single (by decide)) hunmixed hb huser rfl
  have hnodup : (stairs.map Rule.pattern).Nodup := by
    decide
  have hleads : ∀ t u : Text, { pattern := t, redirect := some u } ∈ stairs → IsLiteral t →
      Topic.Responds { rules := stairs } t (·.LeadsTo u) := by
    intro t u hr ht
    exact .of_nodup hnodup ht hr rfl ⟨rfl, rfl, rfl⟩
  have hthree : Topic.Responds { rules := stairs } "three" (·.Speaks "Up here.") := by
    have hsettled : Settled "Up here." :=
      settled_of_not_mem (by decide) (by decide) (by decide) (by decide) (by decide)
    have hliteral : IsLiteral "three" := by
      decide
    have hr : { pattern := "three", replies := ["Up here."] } ∈ stairs := by
      decide
    exact .of_nodup hnodup hliteral hr rfl ⟨rfl, rfl, rfl, by decide, hsettled⟩
  have htwo : Topic.Chain { rules := stairs } 1 "two" "three" :=
    .link (hleads _ _ (by decide) (by decide)) (.stop (by decide))
  have hone : Topic.Chain { rules := stairs } 2 "one" "three" :=
    .link (hleads _ _ (by decide) (by decide)) htwo
  have hround : Topic.Chain { rules := stairs } 2 "left" "left" := by
    apply Topic.Chain.link (hleads "left" "right" (by decide) (by decide))
    apply Topic.Chain.link (hleads "right" "left" (by decide) (by decide))
    exact .stop (by decide)
  refine ⟨?_, ?_, ?_⟩
  · exact (hlimit.reply htwo hthree [] "Two?" (by decide +kernel)).mpr (by decide)
  · exact hlimit.beyond hone (by decide) [] "One!" (by decide +kernel)
  · exact hlimit.cycle hround [] "left" (by decide +kernel)

end Dialogue
