import Dialogue.Proofs.Checked
import Dialogue.Proofs.Depth
import Dialogue.Proofs.Users

/-! What the record of a reply tells. A step is written to until its rule has been looked for, and by
then it is the last one; whatever is answered on the way adds steps after it. -/
namespace Dialogue

open Answering

/-- The patterns that a message can match in a topic. Those that follow on the bot's last reply may
stand in any topic of its tree. -/
inductive Playbook.Offers (p : Playbook) (topic : Text) : (viaPrevious : Bool) → Text → Prop where
  | ranked {patterns : List Text} {pattern : Text} :
      p.ranked.find? topic = some patterns → pattern ∈ patterns → p.Offers topic false pattern
  | previous {name : Text} {position : Nat} {r : Rule} :
      name ∈ p.topics.tree p.depth topic → p.topics.rule? name position = some r →
        r.previous.isSome = true → p.Offers topic true r.pattern

/-- There are steps from which an answer leads to this depth. -/
def Reaches (depth : Nat) (steps : List Step) : Prop := depth = 0 ∨ ∃ s ∈ steps, s.depth + 1 = depth

/-- The record tells what was done with the playbook, and what is remembered to have been matched
last. -/
structure Tells (p : Playbook) (steps : List Step) (tried : Nat) (lastMatch : Option Text) :
    Prop where
  tried : tried = steps.foldl (fun sum s => sum + s.tried) 0
  /-- The first step, for one, is of depth zero. -/
  order : ∀ before s after, steps = before ++ s :: after → Reaches s.depth before
  previous : ∀ s ∈ steps, s.viaPrevious = true → s.depth = 0
  matched : ∀ s ∈ steps, ∀ pattern ∈ s.matched, p.Offers s.topic s.viaPrevious pattern
  last : ∀ s ∈ steps.getLast?, lastMatch = some (s.matched.getD [])

/-- What is remembered to have been matched last. -/
def Roster.lastMatch? (r : Roster) (user : Text) : Option Text :=
  (r.profile? user).map Profile.lastMatch

theorem Roster.lastMatch?_setLastMatch (r : Roster) (user pattern : Text) :
    (r.setLastMatch user pattern).lastMatch? user = some pattern :=
  congrArg (Option.map Profile.lastMatch) (r.profile?_alter_self user _)

theorem Roster.lastMatch?_alter {r : Roster} {user pattern : Text}
    (h : r.lastMatch? user = some pattern) {f : Profile → Profile}
    (hf : ∀ p, (f p).lastMatch = p.lastMatch) : (r.alter user f).lastMatch? user = some pattern := by
  obtain ⟨profile, hprofile, rfl⟩ := Option.map_eq_some_iff.mp h
  rw [lastMatch?, profile?_alter_self, Roster.profile, hprofile]
  exact congrArg some (hf profile)

/-! ### One step more -/

theorem Reaches.mono {depth : Nat} {steps more : List Step} (h : Reaches depth steps)
    (hmore : steps <+: more) : Reaches depth more := by
  rcases h with h | ⟨s, hs, hdepth⟩
  · exact .inl h
  · exact .inr ⟨s, hmore.subset hs, hdepth⟩

/-- What is put on record of a step once its rule is known. -/
structure Step.Closed (p : Playbook) (s : Step) : Prop where
  previous : s.viaPrevious = true → s.depth = 0
  matched : ∀ pattern ∈ s.matched, p.Offers s.topic s.viaPrevious pattern

theorem Tells.of_last {p : Playbook} {steps : List Step} {tried : Nat} {lastMatch other : Option Text}
    (h : Tells p steps tried lastMatch)
    (hlast : ∀ pattern, lastMatch = some pattern → other = some pattern) :
    Tells p steps tried other :=
  { h with last := fun s hs => hlast _ (h.last s hs) }

theorem Tells.concat {p : Playbook} {steps : List Step} {tried : Nat} {lastMatch : Option Text}
    (h : Tells p steps tried lastMatch) {s : Step} (hs : s.Closed p) (hreach : Reaches s.depth steps) :
    Tells p (steps ++ [s]) (tried + s.tried) (some (s.matched.getD [])) where
  tried := by
    rw [h.tried, List.foldl_append]
    rfl
  order before t after heq := by
    rcases List.eq_nil_or_concat after with rfl | ⟨after, u, rfl⟩
    · obtain ⟨rfl, ht⟩ := List.append_inj' heq rfl
      obtain rfl := List.singleton_inj.mp ht
      exact hreach
    · rw [List.concat_eq_append, ← List.cons_append, ← List.append_assoc] at heq
      exact h.order before t after (List.append_inj' heq rfl).1
  previous t ht := by
    rcases List.mem_append.mp ht with ht | ht
    · exact h.previous t ht
    · obtain rfl := List.mem_singleton.mp ht
      exact hs.previous
  matched t ht := by
    rcases List.mem_append.mp ht with ht | ht
    · exact h.matched t ht
    · obtain rfl := List.mem_singleton.mp ht
      exact hs.matched
  last t ht := by
    rw [List.getLast?_concat] at ht
    obtain rfl := Option.mem_some.mp ht
    rfl

/-! ### The rule of a step -/

namespace Selection

variable {b : Bot} {p : Playbook} {user topic message : Text} {m : Match} {n : Nat}

theorem offers_of_matchTrigger (h : matchTrigger b p user topic message = .ok (some m, n)) :
    m.viaPrevious = false ∧ p.Offers topic m.viaPrevious m.rule.pattern := by
  obtain ⟨patterns, _, hranked, hmem, -, -, hvia⟩ := named_of_matchTrigger h
  rw [hvia]
  exact ⟨rfl, .ranked hranked hmem⟩

theorem mem_tree_of_matchPrevious (h : matchPrevious b p user topic message = .ok (some m, n)) :
    m.topic ∈ p.topics.tree p.depth topic := by
  rw [matchPrevious] at h
  split at h
  · cases h
  · obtain ⟨-, -, l, hl, -⟩ := firstLookback_some h
    obtain ⟨name, hname, hl⟩ := List.mem_flatMap.mp hl
    obtain ⟨_, -, heq⟩ := List.mem_map.mp hl
    cases heq
    exact hname

theorem offers_of_matchPrevious (hp : p.InRange)
    (h : matchPrevious b p user topic message = .ok (some m, n)) :
    p.Offers topic m.viaPrevious m.rule.pattern := by
  obtain ⟨_, _, _, -, -, -, hprevious, hnamed, hvia⟩ := named_of_matchPrevious hp h
  rw [hvia]
  refine .previous (mem_tree_of_matchPrevious h) hnamed.rule ?_
  rw [hprevious]
  rfl

end Selection

namespace Answer

variable {a : Asking} {before : List Step} {s : Step} {q r : Process}

/-- What a step becomes when its rule has been found, or none has. -/
def fill (s : Step) : Option Match → Step
  | some m => { s with matched := some m.rule.pattern, viaPrevious := m.viaPrevious }
  | none => s

theorem modify_last (before : List Step) (s : Step) (f : Step → Step) :
    (before ++ [s]).modify before.length f = before ++ [f s] := by
  induction before with
  | nil => rfl
  | cons t before ih => exact congrArg (t :: ·) ih

theorem tryOut_last (hq : q.steps = before ++ [s]) {e : Except Fault (Option Match × Nat)}
    {found : Option Match} (h : (tryOut before.length e).run.run q = (.ok found, r)) :
    ∃ n, e = .ok (found, n) ∧ r =
      { q with tried := q.tried + n, steps := before ++ [{ s with tried := s.tried + n }] } := by
  cases e with
  | error fault => cases h
  | ok result =>
    obtain ⟨_, n⟩ := result
    cases h
    refine ⟨n, rfl, ?_⟩
    rw [← modify_last before s fun s => { s with tried := s.tried + n }, ← hq]

theorem run_recordMatch_last (hq : q.steps = before ++ [s]) (found : Option Match) :
    (recordMatch a.user before.length found).run.run q = (.ok (),
      { q with
        bot := q.bot.onRoster (·.setLastMatch a.user ((found.map (·.rule.pattern)).getD []))
        steps := before ++ [fill s found] }) := by
  have hfill := modify_last before s
  rw [← hq] at hfill
  cases found with
  | none =>
    show _ = (Except.ok (), { q with bot := _, steps := before ++ [s] })
    rw [← hq]
    rfl
  | some m =>
    rw [fill, ← hfill fun s =>
      { s with matched := some m.rule.pattern, viaPrevious := m.viaPrevious }]
    rfl

/-- What is found stands where messages of the topic look for it. -/
structure Offered (a : Asking) (s : Step) (found : Match) : Prop where
  previous : found.viaPrevious = true → s.depth = 0
  offers : a.playbook.Offers s.topic found.viaPrevious found.rule.pattern

/-- A step is written to once more, by what is found for it, and that is what is remembered. -/
theorem findRule_last (hp : a.playbook.InRange) {isFirst : Bool} {message : Text}
    (hfirst : isFirst = true → s.depth = 0) (hq : q.steps = before ++ [s]) {found : Option Match}
    (h : (findRule a isFirst before.length s.topic message).run.run q = (.ok found, r)) :
    ∃ n, (∀ m ∈ found, Offered a s m) ∧ r =
      { q with
        bot := q.bot.onRoster (·.setLastMatch a.user ((found.map (·.rule.pattern)).getD []))
        tried := q.tried + n
        steps := before ++ [fill { s with tried := s.tried + n } found] } := by
  obtain ⟨b, steps, tried, draws⟩ := q
  obtain rfl : steps = before ++ [s] := hq
  rw [findRule, run_bot] at h
  obtain ⟨following, q₁, hfollowing, h⟩ := ok_of_run h
  obtain ⟨_, q₂, hchosen, h⟩ := ok_of_run h
  obtain ⟨_, q₃, hrecord, h⟩ := ok_of_run h
  cases h
  have hfollows : ∃ n, (∀ m ∈ following, Offered a s m) ∧
      q₁ = ⟨b, before ++ [{ s with tried := s.tried + n }], tried + n, draws⟩ := by
    split at hfollowing
    · rename_i hisFirst
      obtain ⟨n, hprevious, rfl⟩ := tryOut_last rfl hfollowing
      refine ⟨n, fun m hm => ?_, rfl⟩
      rw [hm] at hprevious
      exact ⟨fun _ => hfirst hisFirst, Selection.offers_of_matchPrevious hp hprevious⟩
    · cases hfollowing
      exact ⟨0, fun m hm => (Option.not_mem_none m hm).elim, rfl⟩
  obtain ⟨n, hoffered, rfl⟩ := hfollows
  have hchooses : ∃ k, (∀ m ∈ found, Offered a s m) ∧
      q₂ = ⟨b, before ++ [{ s with tried := s.tried + k }], tried + k, draws⟩ := by
    split at hchosen
    · cases hchosen
      exact ⟨n, hoffered, rfl⟩
    · obtain ⟨k, htrigger, rfl⟩ := tryOut_last rfl hchosen
      refine ⟨n + k, fun m hm => ?_, ?_⟩
      · rw [hm] at htrigger
        obtain ⟨hvia, hoffers⟩ := Selection.offers_of_matchTrigger htrigger
        refine ⟨fun hprevious => ?_, hoffers⟩
        rw [hvia] at hprevious
        cases hprevious
      · simp only [Nat.add_assoc]
  obtain ⟨k, hoffered, rfl⟩ := hchooses
  rw [run_recordMatch_last rfl] at hrecord
  cases hrecord
  exact ⟨k, hoffered, rfl⟩

theorem closed_fill {found : Option Match} (h : ∀ m ∈ found, Offered a s m)
    (hvia : s.viaPrevious = false) (hmatched : s.matched = none) (n : Nat) :
    (fill { s with tried := n } found).Closed a.playbook := by
  cases found with
  | none =>
    refine ⟨fun hprevious => ?_, fun pattern hpattern => ?_⟩
    · rw [fill, hvia] at hprevious
      cases hprevious
    · rw [fill, hmatched] at hpattern
      cases hpattern
  | some m =>
    have hm := h m rfl
    refine ⟨hm.previous, fun pattern hpattern => ?_⟩
    obtain rfl := Option.some.inj hpattern
    exact hm.offers

/-- After that the step is as it will be told. -/
theorem findRule_closes (hp : a.playbook.InRange) (depth : Nat) (topic message : Text) (begin : Bool)
    (hq : q.steps = before ++ [({ depth, topic, message, begin } : Step)]) {found : Option Match}
    (h : (findRule a (depth == 0) before.length topic message).run.run q = (.ok found, r)) :
    ∃ t : Step, t.Closed a.playbook ∧ t.depth = depth ∧ r =
      { q with
        bot := q.bot.onRoster (·.setLastMatch a.user (t.matched.getD []))
        tried := q.tried + t.tried
        steps := before ++ [t] } := by
  have hfirst : (depth == 0) = true → depth = 0 := fun hzero => by simpa using hzero
  obtain ⟨n, hoffered, rfl⟩ := findRule_last hp hfirst hq h
  refine ⟨_, closed_fill hoffered rfl rfl (0 + n), ?_, ?_⟩
  · cases found <;> rfl
  · rw [Nat.zero_add]
    cases found <;> rfl

end Answer

/-! ### Whole answers -/

namespace Process

/-- What is on record by now is told as it is. -/
def Told (a : Asking) (q : Process) : Prop :=
  Tells a.playbook q.steps q.tried (q.bot.roster.lastMatch? a.user)

/-- An answer at a depth adds to the record, and it tells what was done as well as before. -/
structure Continues (a : Asking) (depth : Nat) (q r : Process) : Prop where
  kept : q.steps <+: r.steps
  told : Reaches depth q.steps → q.Told a → r.Told a

variable {a : Asking} {depth : Nat} {q r : Process}

theorem composes_continues (a : Asking) (depth : Nat) : Composes (Continues a depth) where
  refl _ := ⟨List.prefix_refl _, fun _ h => h⟩
  trans h k := ⟨h.kept.trans k.kept, fun hreach hq => k.told (hreach.mono h.kept) (h.told hreach hq)⟩

/-- Nothing is put on record, and what was matched last is not touched. -/
theorem Continues.of_steps (hsteps : r.steps = q.steps) (htried : r.tried = q.tried)
    (hlast : ∀ pattern, q.bot.roster.lastMatch? a.user = some pattern →
      r.bot.roster.lastMatch? a.user = some pattern) : Continues a depth q r where
  kept := hsteps ▸ List.prefix_refl _
  told _ hq := by
    rw [Told, hsteps, htried]
    exact hq.of_last hlast

theorem admitsMarkup_continues (a : Asking) (depth : Nat) :
    AdmitsMarkup a.user (Continues a depth) where
  toComposes := composes_continues a depth
  draw _ _ := .of_steps rfl rfl fun _ h => h
  setVar _ _ _ := .of_steps rfl rfl fun _ h => Roster.lastMatch?_alter h fun _ => rfl
  setBotVar _ _ _ := .of_steps rfl rfl fun _ h => h
  setGlobal _ _ _ := .of_steps rfl rfl fun _ h => h
  hotLoad _ _ := .of_steps rfl rfl fun _ h => by
    rwa [Bot.roster_hotLoad]

end Process

open Process

namespace Answer

variable {a : Asking} {call : Answerer} {depth : Nat}

/-- The step that an answer opens, and whatever comes after it. -/
theorem continues_openStep (hp : a.playbook.InRange) (depth : Nat) (topic message : Text)
    (begin : Bool) {next : Option Match → Answering Text}
    (hnext : ∀ found, Leaves (Continues a (depth + 1)) (next found)) {q r : Process} {v : Text}
    (h : (openStep { depth, topic, message, begin } >>= fun step =>
      findRule a (depth == 0) step topic message >>= next).run.run q = (.ok v, r)) :
    Continues a depth q r ∧ ∃ s ∈ r.steps, s.depth = depth := by
  rw [run_openStep] at h
  obtain ⟨found, q', hfound, h⟩ := ok_of_run h
  obtain ⟨t, hclosed, rfl, rfl⟩ := findRule_closes hp depth topic message begin rfl hfound
  have hcontinues := hnext found h
  have hmem : t ∈ q.steps ++ [t] := List.mem_append_right _ (List.mem_singleton_self t)
  refine ⟨⟨(List.prefix_append _ _).trans hcontinues.kept, fun hreach hq => ?_⟩,
    t, hcontinues.kept.subset hmem, rfl⟩
  refine hcontinues.told (.inr ⟨t, hmem, rfl⟩) ?_
  have htold := hq.concat hclosed hreach
  have hlast : (q.bot.onRoster (·.setLastMatch a.user (t.matched.getD []))).roster.lastMatch? a.user =
      some (t.matched.getD []) := q.bot.roster.lastMatch?_setLastMatch a.user _
  rwa [← hlast] at htold

/-- What is done once a rule has been looked for. -/
theorem continues_finish (hcall : ∀ begin message,
      Leaves (Continues a (depth + 1)) (call (depth + 1) begin message))
    (topic message : Text) (begin : Bool) (found : Option Match) :
    Leaves (Continues a (depth + 1)) (match found with
      | none => setback .notMatched
      | some found => do
        let turn : Turn :=
          { depth, message, topic, stars := found.stars, botStars := found.botStars }
        let text ← speak (Expansion.expand a call turn) (call (depth + 1) begin) found.rule
        if text = [] then setback .noReply
        else if begin then Expansion.expandBegin a.user text
        else Expansion.expand a call turn text) := by
  have hmarkup := (admitsMarkup_continues a (depth + 1)).leaves
  cases found with
  | none => exact hmarkup.setback _
  | some found =>
    refine hmarkup.conclude ?_ found
    exact hcall

theorem continues_respond (hp : a.playbook.InRange) (hcall : ∀ begin message,
      Leaves (Continues a (depth + 1)) (call (depth + 1) begin message)) (begin : Bool)
    (message : Text) : Leaves (Continues a depth) (respond a call depth begin message) := by
  have hmarkup := (admitsMarkup_continues a depth).leaves
  unfold respond
  split
  · exact hmarkup.setback _
  · refine hmarkup.bind (hmarkup.currentTopic begin) fun found _ => ?_
    cases found with
    | none => exact hmarkup.setback _
    | some topic =>
      intro q v r hrun
      exact (continues_openStep hp depth topic message begin
        (continues_finish hcall topic message begin) hrun).1

theorem continues_resolve (hp : a.playbook.InRange) (depth : Nat) (begin : Bool) (message : Text) :
    Leaves (Continues a depth) (resolve a depth begin message) := by
  rw [resolve]
  generalize a.playbook.depth + 2 - depth = levels
  induction levels generalizing depth begin message with
  | zero => exact (admitsMarkup_continues a depth).leaves.setback _
  | succ levels ih => exact continues_respond hp (ih (depth + 1)) begin message

/-- What is done before the reply always opens a step. -/
theorem continues_request (hp : a.playbook.InRange) (message : Text) {q r : Process} {v : Text}
    (h : (resolve a 0 true message).run.run q = (.ok v, r)) :
    Continues a 0 q r ∧ ∃ s ∈ r.steps, s.depth = 0 := by
  rw [resolve_eq_respond] at h
  exact continues_openStep hp 0 Topic.begin message true
    (continues_finish (fun begin message => continues_resolve hp 1 begin message) _ message true) h

theorem continues_answer (hp : a.playbook.InRange) (message : Text) :
    Leaves (Continues a 0) (answer a message) := by
  intro q v r h
  rw [answer, answerWith] at h
  split at h
  · obtain ⟨before, q₁, hbefore, h⟩ := ok_of_run h
    obtain ⟨text, q₂, htext, h⟩ := ok_of_run h
    obtain ⟨hrequest, s, hs, hdepth⟩ := continues_request hp _ hbefore
    have hreply : Continues a 0 q₁ q₂ := by
      split at htext
      · obtain ⟨reply, q', hreply, htext⟩ := ok_of_run htext
        cases htext
        exact continues_resolve hp 0 false message hreply
      · cases htext
        exact (composes_continues a 0).refl q₁
    have hafter : Continues a 1 q₂ r := by
      refine (admitsMarkup_continues a 1).leaves.expand ?_ text h
      exact continues_resolve hp 1 false
    refine ⟨(hrequest.kept.trans hreply.kept).trans hafter.kept, fun hreach hq => ?_⟩
    have hreached : Reaches 1 q₂.steps := .inr ⟨s, hreply.kept.subset hs, by rw [hdepth]⟩
    exact hafter.told hreached (hreply.told (.inl rfl) (hrequest.told hreach hq))
  · exact continues_resolve hp 0 false message h

end Answer

/-! ### Whole replies -/

namespace Bot

/-- What has been sorted refers to nothing that is not there. -/
structure Indexed (b : Bot) : Prop where
  nodup : b.script.topics.keys.Nodup
  inRange : ∀ p ∈ b.playbook, p.InRange

theorem Change.indexed {b c : Bot} (h : b.Change c) (hb : b.Indexed) : c.Indexed := by
  cases h with
  | absorb doc => exact ⟨Script.nodup_merge hb.nodup doc, hb.inRange⟩
  | sort hsort =>
    obtain ⟨p, hp, rfl⟩ := Answering.ok_of_map hsort
    refine ⟨hb.nodup, fun q hq => ?_⟩
    cases hq
    rw [Playbook.eq_build hp]
    exact Playbook.inRange_build hb.nodup
  | setVar | setGlobal | setSubstitution | setPerson | onRoster | onCallables =>
    exact ⟨hb.nodup, hb.inRange⟩

theorem IsNew.indexed {b : Bot} (hb : b.IsNew) : b.Indexed where
  nodup := by
    rw [hb.script]
    exact List.nodup_nil
  inRange p hp := by
    rw [hb.playbook] at hp
    cases hp

/-- Whatever became of the bot before, the record of a reply tells what was done with the playbook that
it had when the reply began, and the user's last match afterwards is that of the last step. -/
theorem record_tells {new b : Bot} (hnew : new.IsNew) (hlater : new.Later b) {p : Playbook}
    (hp : b.playbook = some p) {draws : List Nat} {user message : Text} {e : Exchange}
    (h : (b.reply draws user message).result = .ok e) :
    Tells p e.steps e.tried ((b.reply draws user message).bot.roster.lastMatch? user) := by
  have hrange : p.InRange := (hlater.keeps Change.indexed hnew.indexed).inRange p hp
  obtain ⟨reply, q, hrun, rfl⟩ := answered_of_ok hp h
  have hstart : Process.Told ⟨user, p⟩ { bot := b.onRoster (·.welcome user), draws } :=
    { tried := rfl
      order := fun before s after heq => by simp at heq
      previous := fun _ hs => nomatch hs
      matched := fun _ hs => nomatch hs
      last := fun _ hs => nomatch hs }
  have htold := (Answer.continues_answer hrange _ hrun).told (.inl rfl) hstart
  rw [reply_of_text hp hrun]
  exact htold.of_last fun pattern hlast => Roster.lastMatch?_alter hlast fun _ => rfl

/-- The reply leads to another topic, and is answered there. -/
def relaying : Document where
  topics := ⟨[
    ("random", { rules :=
      [{ pattern := "hello", replies := ["\x7btopic=door\x7d\x7b@knock\x7d, friend."] }] }),
    ("door", { rules := [{ pattern := "knock", replies := ["Come in"] }] })]⟩

def relayed : Bot :=
  { ({} : Bot).absorb relaying with
    playbook := some (.build {} 50 (({} : Bot).absorb relaying).script) }

theorem relayed_tells : ∃ (e : Exchange) (p : Playbook),
    (relayed.reply [] "user" "Hello!").result = .ok e ∧ e.reply = "Come in, friend." ∧
      e.steps.map Step.depth = [0, 1] ∧
        Tells p e.steps e.tried ((relayed.reply [] "user" "Hello!").bot.roster.lastMatch? "user") ∧
          (relayed.reply [] "user" "Hello!").bot.roster.lastMatch? "user" = some "knock" := by
  have hlater : ({} : Bot).Later relayed :=
    (Change.absorb relaying).later.trans (Change.sort rfl).later
  have hreply : (relayed.reply [] "user" "Hello!").result = .ok
      { reply := "Come in, friend."
        message := "hello"
        steps := [⟨0, "random", "hello", some "hello", false, 1, false⟩,
          ⟨1, "door", "knock", some "knock", false, 1, false⟩]
        tried := 2 } := Answering.ok_of_toOption (by decide +kernel)
  have htells := record_tells ⟨rfl, rfl⟩ hlater rfl hreply
  exact ⟨_, _, hreply, rfl, rfl, htells, htells.last _ rfl⟩

end Bot

end Dialogue
