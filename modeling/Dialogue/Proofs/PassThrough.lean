import Dialogue.Proofs.Aside
import Dialogue.Proofs.Echo
import Dialogue.Proofs.HotLoad
import Dialogue.Proofs.LastMatch
import Dialogue.Proofs.Settled
import Dialogue.Script.Reading

/-! What is done before each reply, if it is nothing but the reply. It takes a rule and a lot of its
own, and the markup of the reply is carried out once more. -/
namespace Dialogue

open Answering Answer Expansion Markup

/-- Lets every reply pass. -/
def request : Rule := { pattern := "request", replies := [replyMark] }

def passThrough : Document where
  topics := ⟨[(Topic.begin, { rules := [request] })]⟩

/-- The block as it is written in a script. -/
example : Document.ofText {} "stream()" "> begin\n+ request\n- \x7bok\x7d\n< begin\n" =
    .ok passThrough :=
  ok_of_toOption (by decide +kernel)

/-- There is nothing that is done before each reply, and no topic leads to where it would stand. -/
structure Script.Beginless (s : Script) : Prop where
  absent : s.topics.has Topic.begin = false
  unlinked : ∀ name t, s.topics.find? name = some t →
    Topic.begin ∉ t.includes ∧ Topic.begin ∉ t.inherits

namespace Playbook

/-- The second playbook lets every reply pass, and is the first one apart from that. -/
structure PassesThrough (p q : Playbook) : Prop where
  aside : Aside Topic.begin p q
  absent : p.topics.has Topic.begin = false
  topic : q.topics.find? Topic.begin = some { rules := [request] }
  ranked : q.ranked.find? Topic.begin = some [request.pattern]
  lookbacks : q.lookbacks.has Topic.begin = false

variable {s : Script} {settings : Settings} {depth : Nat} {p q : Playbook}

theorem entries_passThrough (h : s.Beginless) : Table.entries (s.merge passThrough).topics =
    Table.entries s.topics ++ [(Topic.begin, { rules := [request] })] := by
  have habsent : Topic.begin ∉ s.topics.keys := by
    rw [Table.mem_keys, Bool.not_eq_true]
    exact h.absent
  exact Table.entries_alter_of_not_mem habsent {} (·.merge { rules := [request] })

theorem passesThrough_build (h : s.Beginless) (settings : Settings) (depth : Nat) :
    PassesThrough (build settings depth s) (build settings depth (s.merge passThrough)) := by
  have hentries := entries_passThrough h
  have haside : Aside Topic.begin (build settings depth s)
      (build settings depth (s.merge passThrough)) :=
    aside_build hentries rfl h.unlinked rfl rfl rfl settings depth
  have hthere := h.absent
  have habsent : s.topics.find? Topic.begin = none := by
    rwa [Table.has, Option.isSome_eq_false_iff, Option.isNone_iff_eq_none] at hthere
  have htopic : (s.merge passThrough).topics.find? Topic.begin = some { rules := [request] } := by
    have hlookup : (Table.entries s.topics).lookup Topic.begin = none := habsent
    rw [Table.find?, hentries, List.lookup_append, hlookup, List.lookup_cons, beq_self_eq_true]
    rfl
  have hlookbacks : (build settings depth (s.merge passThrough)).lookbacks.has Topic.begin = false := by
    rw [haside.lookbacks, ← Bool.not_eq_true]
    intro hhas
    rw [has_of_has_lookbacks hhas] at hthere
    cases hthere
  refine ⟨haside, h.absent, htopic, ?_, hlookbacks⟩
  have hpool : (s.merge passThrough).topics.pool depth Topic.begin = [request.pattern] := by
    rw [Topics.pool, Topics.poolFrom, htopic]
    rfl
  have hranked : Entry.ranked [request.pattern] = [request.pattern] := by
    decide +kernel
  rw [find?_ranked, htopic, hpool, Option.map_some, hranked]

theorem wellFormed_request : WellFormed request := by
  refine ⟨by decide +kernel, ?_⟩
  rintro pattern ⟨⟩

/-- A script that can be sorted still can be. -/
theorem ofScript_passThrough (hp : ofScript settings depth s = .ok p) :
    ofScript settings depth (s.merge passThrough) =
      .ok (build settings depth (s.merge passThrough)) := by
  by_cases hstrict : settings.strict = true
  · refine ofScript_of_checkPatterns (checkPatterns_eq_ok_iff_holds.mpr fun r hr => ?_) settings depth
    rcases Topics.holds_merge.mp hr with hold | ⟨part, hpart, hr⟩
    · exact checkPatterns_eq_ok_iff_holds.mp (checkPatterns_of_ofScript hstrict hp) r hold
    · obtain rfl := List.mem_singleton.mp hpart
      obtain rfl := List.mem_singleton.mp hr
      exact wellFormed_request
  · exact ofScript_of_lenient (Bool.eq_false_iff.mpr hstrict) depth _

end Playbook

open Playbook

/-! ### Before the reply -/

section Request

variable {p q : Playbook} {user message : Text} (h : PassesThrough p q)

include h

namespace Selection

theorem matchPrevious_begin (b : Bot) :
    matchPrevious b q user Topic.begin message = .ok (none, 0) := by
  have htree : q.topics.tree q.depth Topic.begin = [Topic.begin] := by
    rw [Topics.tree, Topics.treeFrom, h.topic]
    rfl
  have hlooks : q.looksBack [Topic.begin] = false := by
    rw [Playbook.looksBack, List.any_cons, h.lookbacks]
    rfl
  rw [matchPrevious, htree]
  simp only [hlooks]
  rfl

theorem matchTrigger_begin (b : Bot) : matchTrigger b q user Topic.begin "request" =
    .ok (some { topic := Topic.begin, rule := request, viaPrevious := false, stars := [] }, 1) := by
  have howner : q.topics.owner? q.depth Topic.begin request.pattern = some (Topic.begin, 0) := by
    rw [Topics.owner?, h.topic]
    rfl
  have hrule : q.topics.rule? Topic.begin 0 = some request := by
    rw [Topics.rule?, h.topic]
    rfl
  have htry := tryPattern_literal (surroundings b q user) b.settings.strict
    (t := request.pattern) (by decide +kernel) (by decide +kernel)
  have hmessage : ("request" : Text) = request.pattern := rfl
  rw [matchTrigger, h.ranked, Option.getD_some, firstTrigger, hmessage, htry]
  simp only [howner, hrule]
  rfl

end Selection

namespace Answer

/-- The rule lets the reply pass: it takes one lot, and it is remembered. -/
theorem run_request (call : Answerer) (r : Process) : ∃ r',
    (respond ⟨user, q⟩ call 0 true "request").run.run r = (.ok replyMark, r') ∧
      r'.bot = r.bot.onRoster (·.setLastMatch user request.pattern) ∧ r'.draws = r.draws.tail ∧
        r'.places = r.places ++ [(0, Topic.begin, true)] := by
  have hsought : ∀ b, sought ⟨user, q⟩ true Topic.begin "request" b = .ok (some
      { topic := Topic.begin, rule := request, viaPrevious := false, stars := [] }) := by
    intro b
    simp only [sought, followed, if_true, Selection.matchPrevious_begin h,
      Selection.matchTrigger_begin h]
    rfl
  obtain ⟨r', hrun, hbot, hdraws, hplaces⟩ := run_findRule_sought ⟨user, q⟩ true r.steps.length
    Topic.begin "request"
    { r with
      steps := r.steps ++ [{ depth := 0, topic := Topic.begin, message := "request", begin := true }] }
  rw [hsought] at hrun hbot
  refine ⟨{ r' with draws := r'.draws.tail }, ?_, hbot, congrArg List.tail hdraws, ?_⟩
  · rw [respond, if_neg (Nat.not_lt_zero _), currentTopic]
    simp only [if_true]
    rw [pure_bind]
    dsimp only
    rw [run_openStep, run_bind]
    simp only [beq_self_eq_true, hrun]
    rw [run_bind, run_speak rfl rfl rfl]
    rfl
  · refine Eq.trans hplaces ?_
    rw [Process.places, Process.places, List.map_append]
    rfl

/-- The answer to the message, with its markup carried out once more, comes after the request. -/
theorem run_answer_request (user message : Text) (r : Process) : ∃ r',
    (answer ⟨user, q⟩ message).run.run r =
        (resolve ⟨user, q⟩ 0 false message >>= expand ⟨user, q⟩ (resolve ⟨user, q⟩) {}).run.run r' ∧
      r'.bot = r.bot.onRoster (·.setLastMatch user request.pattern) ∧ r'.draws = r.draws.tail ∧
        r'.places = r.places ++ [(0, Topic.begin, true)] := by
  obtain ⟨r', hrun, hrest⟩ := run_request h (resolve ⟨user, q⟩) r
  refine ⟨r', ?_, hrest⟩
  have hbegin : q.topics.has Topic.begin = true := by
    rw [Table.has, h.topic]
    rfl
  have hmark : Text.has replyMark replyMark = true := by
    decide
  have hpass : ∀ reply : Text, Text.replace replyMark reply replyMark = reply := by
    intro reply
    have hread : Text.edit (fun t => (replyMark.isPrefixOf? t).map fun rest => (reply, rest))
        (replyMark ++ []) = reply ++ [] := Text.edit_of_read (by decide) rfl
    rw [List.append_nil] at hread
    exact hread.trans (List.append_nil reply)
  rw [answer, answerWith, if_pos hbegin, run_bind, resolve_eq_respond, hrun, ← resolve_eq_respond]
  simp only [hmark, if_true, bind_assoc, pure_bind, hpass]

end Answer

end Request

/-! ### The reply -/

/-- A message stands where the request does. -/
def inBegin : StepKind := fun _ topic begin => topic = Topic.begin ∧ begin = false

section Reply

variable {p q : Playbook} {user : Text} {R₀ R : Bot → Bot → Prop}

namespace Playbook.PassesThrough

theorem sameMarkup (h : PassesThrough p q) (user : Text) : SameMarkup ⟨user, p⟩ ⟨user, q⟩ where
  user := rfl
  arrays := h.aside.arrays.symm
  person := h.aside.person.symm
  depth := h.aside.depth.symm

theorem has (h : PassesThrough p q) {topic : Text} (htopic : topic ≠ Topic.begin) :
    q.topics.has topic = p.topics.has topic := by
  rw [Table.has, Table.has, h.aside.topics.same topic htopic]

theorem has_begin (h : PassesThrough p q) : q.topics.has Topic.begin = true := by
  rw [Table.has, h.topic]
  rfl

/-- As long as no message stands where the request does, the same topics are there. -/
theorem topicFor (h : PassesThrough p q) (hR : Bot.Unread user R) {c d : Bot} (hcd : R c d)
    (hgood : ∀ topic, Answer.topicFor ⟨user, q⟩ d = some topic → ¬ inBegin 0 topic false) :
    Answer.topicFor ⟨user, p⟩ c = Answer.topicFor ⟨user, q⟩ d ∧
      R (settled ⟨user, p⟩ c) (settled ⟨user, q⟩ d) := by
  have hvar := (hR.alike hcd p).var "topic"
  have hdefault : q.topics.has Topic.default = p.topics.has Topic.default := h.has (by decide)
  have hne : (d.roster.var? user "topic").getD Topic.default ≠ Topic.begin := by
    intro hbegin
    refine hgood Topic.begin ?_ ⟨rfl, rfl⟩
    simp only [Answer.topicFor, hbegin, h.has_begin, if_true]
  constructor
  · simp only [Answer.topicFor, hvar, h.has hne, hdefault]
  · simp only [settled, hvar, h.has hne]
    split
    · exact hcd
    · exact hR.setUserVar hcd _ _

theorem sought (h : PassesThrough p q) (hR : Bot.Unread user R) {c d : Bot} (hcd : R c d)
    {topic : Text} (htopic : topic ≠ Topic.begin) (isFirst : Bool) (message : Text) :
    Answer.sought ⟨user, p⟩ isFirst topic message c =
      Answer.sought ⟨user, q⟩ isFirst topic message d := by
  have halike := hR.alike hcd p
  simp only [Answer.sought, followed, halike.previous, halike.trigger,
    Selection.matchPrevious_aside _ _ _ h.aside htopic,
    Selection.matchTrigger_aside _ _ _ h.aside htopic]

theorem parallel (h : PassesThrough p q) (hR₀ : Bot.Unread user R₀) (hR : Bot.Unread user R)
    (learn : ∀ {c d}, R₀ c d → ∀ pattern, R (c.onRoster (·.setLastMatch user pattern))
      (d.onRoster (·.setLastMatch user pattern)))
    {depth : Nat} (hdepth : depth ≤ p.depth) (message : Text) :
    Parallel R₀ R inBegin ⟨user, p⟩ ⟨user, q⟩ depth depth message where
  before := hR₀
  after := hR
  learn := learn
  markup := h.sameMarkup user
  within := hdepth
  within' := by
    rw [h.aside.depth]
    exact hdepth
  topicFor hcd hgood := h.topicFor hR₀ hcd hgood
  sought hcd topic hgood := h.sought hR₀ hcd (fun hbegin => hgood ⟨hbegin, rfl⟩) _ message

/-- By induction on the levels of redirects that are left. -/
theorem mirrors_resolveFrom (h : PassesThrough p q) (hR : Bot.Unread user R) (levels depth : Nat)
    (message : Text) : Mirrors R inBegin (resolveFrom ⟨user, p⟩ levels depth false message)
      (resolveFrom ⟨user, q⟩ levels depth false message) := by
  induction levels generalizing depth message with
  | zero => exact .setback hR _
  | succ levels ih =>
    by_cases hdepth : depth ≤ p.depth
    · exact (h.parallel hR hR hR.setLastMatch hdepth message).mirrors (ih (depth + 1))
    · have hdepth' : q.depth < depth := by
        rw [h.aside.depth]
        exact Nat.lt_of_not_le hdepth
      rw [resolveFrom, resolveFrom, respond_tooDeep (Nat.lt_of_not_le hdepth),
        respond_tooDeep hdepth']
      exact .setback hR _

theorem mirrors_resolve (h : PassesThrough p q) (hR : Bot.Unread user R) (depth : Nat)
    (message : Text) : Mirrors R inBegin (resolve ⟨user, p⟩ depth false message)
      (resolve ⟨user, q⟩ depth false message) := by
  have hlevels : (⟨user, q⟩ : Asking).playbook.depth = (⟨user, p⟩ : Asking).playbook.depth :=
    h.aside.depth
  rw [resolve, resolve, hlevels]
  exact h.mirrors_resolveFrom hR _ depth message

theorem mirrors_expand (h : PassesThrough p q) (hR : Bot.Unread user R) (t : Text) :
    Mirrors R inBegin (expand ⟨user, p⟩ (resolve ⟨user, p⟩) {} t)
      (expand ⟨user, q⟩ (resolve ⟨user, q⟩) {} t) :=
  Mirrors.expand hR (h.sameMarkup user) rfl rfl (h.mirrors_resolve hR 1) t

end Playbook.PassesThrough

end Reply

namespace Bot

variable {b c : Bot} {p q : Playbook} {user message : Text} {d : Nat} {draws : List Nat}

/-- The run that ends in an answer whose markup has been carried out once more, as if it stood in no
message. -/
def answeredTwice (b : Bot) (p : Playbook) (draws : List Nat) (user message : Text) :
    Except Fault Text × Process :=
  (answer ⟨user, p⟩ (p.canon.format false message) >>= expand ⟨user, p⟩ (resolve ⟨user, p⟩) {}).run.run
    { bot := b.onRoster (·.welcome user), draws }

/-- The first lot is drawn for the request, and it is remembered that the request was matched. -/
theorem answered_passThrough (h : PassesThrough p q) (hlive : b.SameLive c) (d : Nat)
    (draws : List Nat) (message : Text) : ∃ r, c.answered q (d :: draws) user message =
        (resolve ⟨user, q⟩ 0 false (p.canon.format false message) >>=
          expand ⟨user, q⟩ (resolve ⟨user, q⟩) {}).run.run r ∧
      Process.Beside (ExceptMatch user) { bot := b.onRoster (·.welcome user), draws } r := by
  obtain ⟨r, hrun, hbot, hdraws, -⟩ := run_answer_request h user
    (q.canon.format false message) { bot := c.onRoster (·.welcome user), draws := d :: draws }
  refine ⟨r, ?_, ?_, hdraws.symm⟩
  · rw [answered, hrun, h.aside.canon]
  · have hknown : ((c.onRoster (·.welcome user)).roster.profile? user).isSome = true :=
      congrArg Option.isSome (c.roster.profile?_alter_self user id)
    rw [hbot]
    exact ((hlive.onRoster _).exceptMatch user).trans (exceptMatch_setLastMatch hknown _)

/-- What is left of a reply that is let pass: the same, if there is nothing more to carry out in it. -/
structure Transparent (b c : Bot) (p q : Playbook) (d : Nat) (draws : List Nat)
    (user message : Text) : Prop where
  twice : (b.answeredTwice p draws user message).1 = (c.answered q (d :: draws) user message).1 ∧
    (b.answeredTwice p draws user message).2.bot.ExceptMatch user
      (c.answered q (d :: draws) user message).2.bot
  reply : ∀ e, (b.reply draws user message).result = .ok e → Settled e.reply →
    ∃ e', (c.reply (d :: draws) user message).result = .ok e' ∧ e'.message = e.message ∧
      e'.reply = e.reply ∧
      (b.reply draws user message).bot.ExceptMatch user (c.reply (d :: draws) user message).bot ∧
      (e.steps ≠ [] → (b.reply draws user message).bot.SameLive (c.reply (d :: draws) user message).bot)
  fault : ∀ fault, (b.reply draws user message).result = .error fault →
    (c.reply (d :: draws) user message).result = .error fault ∧
      (b.reply draws user message).bot.ExceptMatch user (c.reply (d :: draws) user message).bot ∧
      ∀ kind text, fault = .setback kind text → kind ≠ .noDefaultTopic →
        (b.reply draws user message).bot.SameLive (c.reply (d :: draws) user message).bot

variable (h : PassesThrough p q) (hlive : b.SameLive c)
  (hstrays : ¬ (c.answered q (d :: draws) user message).2.Strays inBegin)

include h hlive hstrays

theorem answeredTwice_passThrough :
    (b.answeredTwice p draws user message).1 = (c.answered q (d :: draws) user message).1 ∧
      (b.answeredTwice p draws user message).2.bot.ExceptMatch user
        (c.answered q (d :: draws) user message).2.bot := by
  obtain ⟨r, hrun, hbeside⟩ := answered_passThrough h hlive d draws message
  rw [hrun] at hstrays ⊢
  have hmirrors := (h.mirrors_resolve (unread_exceptMatch user) 0
    (p.canon.format false message)).bind fun t _ => h.mirrors_expand (unread_exceptMatch user) t
  obtain ⟨hresult, hprocess⟩ := hmirrors.same _ _ hbeside hstrays
  rw [answeredTwice, answer_eq_resolve h.absent]
  exact ⟨hresult, hprocess.bot⟩

/-- Up to the last pass over the markup the answers agree. -/
theorem agree_passThrough : ∃ result r,
    Agree (ExceptMatch user) SameLive ⟨user, p⟩ { bot := b.onRoster (·.welcome user), draws }
        (b.answered p draws user message) (result, r) ∧
      (∀ t, result = .ok t → c.answered q (d :: draws) user message =
        (expand ⟨user, q⟩ (resolve ⟨user, q⟩) {} t).run.run r) ∧
      ∀ fault, result = .error fault →
        c.answered q (d :: draws) user message = (.error fault, r) := by
  obtain ⟨r, hrun, hbeside⟩ := answered_passThrough h hlive d draws message
  rw [run_bind] at hrun
  rcases hfirst : (resolve ⟨user, q⟩ 0 false (p.canon.format false message)).run.run r with
    ⟨result, r'⟩
  rw [hfirst] at hrun
  have hgood : ¬ r'.Strays inBegin := by
    intro hbad
    refine hstrays ?_
    rw [hrun]
    cases result with
    | error fault => exact hbad
    | ok t => exact (h.mirrors_expand (unread_sameLive user) t).stays r' hbad
  have hparallel := h.parallel (unread_exceptMatch user) (unread_sameLive user)
    (fun hcd => hcd.same) (Nat.zero_le p.depth)
    (p.canon.format false message)
  refine ⟨result, r', ?_, ?_, ?_⟩
  · rw [resolve_eq_respond] at hfirst
    rw [answered, answer_eq_resolve h.absent, resolve_eq_respond, ← hfirst]
    refine hparallel.respond (h.mirrors_resolve (unread_sameLive user) 1) hbeside ?_
    rwa [hfirst]
  · rintro t rfl
    exact hrun
  · rintro fault rfl
    exact hrun

theorem reply_passThrough (hb : b.playbook = some p) (hc : c.playbook = some q) {e : Exchange}
    (he : (b.reply draws user message).result = .ok e) (hsettled : Settled e.reply) :
    ∃ e', (c.reply (d :: draws) user message).result = .ok e' ∧ e'.message = e.message ∧
      e'.reply = e.reply ∧
      (b.reply draws user message).bot.ExceptMatch user (c.reply (d :: draws) user message).bot ∧
      (e.steps ≠ [] →
        (b.reply draws user message).bot.SameLive (c.reply (d :: draws) user message).bot) := by
  obtain ⟨result, r, hagree, hok, -⟩ := agree_passThrough h hlive hstrays
  obtain ⟨reply, q', hanswered, rfl⟩ := answered_of_ok hb he
  rw [hanswered] at hagree
  have hsecond := (hok reply hagree.result.symm).trans (run_expand_settled hsettled _ _ _ r)
  rw [reply_of_text hb hanswered, reply_of_text hc hsecond, h.aside.canon]
  refine ⟨_, rfl, congrArg (fun canon : Canon => canon.format false message) h.aside.canon, rfl, ?_,
    fun hsteps => ?_⟩
  · exact hagree.exceptMatch.alter fun _ _ => rfl
  · rcases hagree.process with hlive | ⟨-, ⟨-, hnone, -⟩ | ⟨pattern, cause, hfault⟩⟩
    · exact hlive.bot.onRoster (·.record user (p.canon.format false message) reply)
    · exact absurd hnone hsteps
    · cases hfault

theorem fault_passThrough (hb : b.playbook = some p) (hc : c.playbook = some q) {fault : Fault}
    (hfault : (b.reply draws user message).result = .error fault) :
    (c.reply (d :: draws) user message).result = .error fault ∧
      (b.reply draws user message).bot.ExceptMatch user (c.reply (d :: draws) user message).bot ∧
      ∀ kind text, fault = .setback kind text → kind ≠ .noDefaultTopic →
        (b.reply draws user message).bot.SameLive (c.reply (d :: draws) user message).bot := by
  obtain ⟨result, r, hagree, -, herror⟩ := agree_passThrough h hlive hstrays
  obtain ⟨q', hanswered⟩ := answered_of_error hb hfault
  rw [hanswered] at hagree
  rw [reply_of_fault hb hanswered, reply_of_fault hc (herror fault hagree.result.symm)]
  refine ⟨rfl, hagree.exceptMatch, ?_⟩
  rintro kind text rfl hkind
  rcases hagree.process with hlive | ⟨-, ⟨-, -, hnone⟩ | ⟨pattern, cause, hpattern⟩⟩
  · exact hlive.bot
  · rw [setbackResult] at hnone
    split at hnone
    · exact absurd (Fault.setback.inj (Except.error.inj hnone)).1 hkind
    · cases hnone
  · cases hpattern

end Bot

/-- A script in which nothing is done before each reply, and the same script with a block that lets
every reply pass, say the same and do the same, as long as no message is matched where the block
stands. Only the markup of the reply is carried out once more, which is nothing to a reply in which
none is left. A user who is in no topic, or whose message meets a pattern at fault, is left as one
who was asked for a request last. -/
theorem passThrough_transparent {s : Script} (h : s.Beginless) {settings : Settings} {depth : Nat}
    {p : Playbook} (hp : Playbook.ofScript settings depth s = .ok p) :
    ∃ q, Playbook.ofScript settings depth (s.merge passThrough) = .ok q ∧
      ∀ (b c : Bot) (d : Nat) (draws : List Nat) (user message : Text),
        b.playbook = some p → c.playbook = some q → b.SameLive c →
        ¬ (c.answered q (d :: draws) user message).2.Strays inBegin →
          Bot.Transparent b c p q d draws user message := by
  refine ⟨_, Playbook.ofScript_passThrough hp, ?_⟩
  obtain rfl := Playbook.eq_build hp
  intro b c d draws user message hb hc hlive hstrays
  have hpasses := Playbook.passesThrough_build h settings depth
  exact {
    twice := Bot.answeredTwice_passThrough hpasses hlive hstrays
    reply := fun e he hsettled => Bot.reply_passThrough hpasses hlive hstrays hb hc he hsettled
    fault := fun fault hfault => Bot.fault_passThrough hpasses hlive hstrays hb hc hfault }

namespace Bot

/-- A bot that has sorted a script. -/
def sorted (s : Script) : Bot := { script := s, playbook := some (Playbook.build {} 50 s) }

theorem sameLive_sorted (s s' : Script) : (sorted s).SameLive (sorted s') := ⟨rfl, rfl, rfl, rfl, rfl⟩

def greeter : Script where
  topics := ⟨[("random", { rules := [{ pattern := "hello bot", replies := ["Hello human."] }] })]⟩

theorem beginless_greeter : greeter.Beginless where
  absent := by
    decide
  unlinked name t ht := by
    obtain rfl := (Prod.mk.inj (List.mem_singleton.mp (Table.mem_entries_of_find? ht))).2
    decide

theorem greeter_passes :
    told ((sorted greeter).reply [] "user" "Hello bot") = some ("Hello human." : Text) ∧
      told ((sorted (greeter.merge passThrough)).reply [0] "user" "Hello bot") =
        some ("Hello human." : Text) := by
  have hlenient : ({} : Settings).strict = false := rfl
  have hp := Playbook.ofScript_of_lenient hlenient 50 greeter
  have hq := Playbook.ofScript_of_lenient hlenient 50 (greeter.merge passThrough)
  obtain ⟨q, hq', htransparent⟩ := passThrough_transparent beginless_greeter hp
  obtain rfl := Except.ok.inj (hq.symm.trans hq')
  have hgood : ¬ ((sorted (greeter.merge passThrough)).answered
      (Playbook.build {} 50 (greeter.merge passThrough)) [0] "user" "Hello bot").2.Strays inBegin := by
    unfold Process.Strays inBegin
    decide +kernel
  have htold : told ((sorted greeter).reply [] "user" "Hello bot") = some ("Hello human." : Text) := by
    decide +kernel
  refine ⟨htold, ?_⟩
  obtain ⟨e, he, htext⟩ := Option.map_eq_some_iff.mp htold
  have hsettled : Settled e.reply := by
    rw [htext]
    exact settled_of_not_mem (by decide) (by decide) (by decide) (by decide) (by decide)
  obtain ⟨e', he', -, hsame, -⟩ := (htransparent (sorted greeter)
    (sorted (greeter.merge passThrough)) 0 [] "user" "Hello bot" rfl rfl (sameLive_sorted _ _)
    hgood).reply e (ok_of_toOption he) hsettled
  rw [told, he', ← htext, ← hsame]
  rfl

/-- Its reply has two backslashes, and so a backslash is said. -/
def pathTeller : Script where
  topics := ⟨[("random", { rules := [{ pattern := "path", replies := ["C:\\\\new"] }] })]⟩

/-- A script whose default topic leads to where requests are answered. -/
def includingBegin : Script where
  topics := ⟨[("random", { includes := [Topic.begin] })]⟩

/-- A script without the default topic. -/
def topicless : Script where
  topics := ⟨[("cave", { rules := [{ pattern := "hello", replies := ["Hello."] }] })]⟩

def lastMatchOf (o : Outcome) : Text := (o.bot.roster.profile "user").lastMatch

/-- What is left of the markup is carried out, users may be sent or led to where requests are answered,
and a user in no topic is remembered to have made one. -/
theorem passThrough_not_transparent :
    (∀ s ∈ [pathTeller, greeter, includingBegin, topicless], s.topics.has Topic.begin = false ∧
      (sorted s).SameLive (sorted (s.merge passThrough))) ∧
    (told ((sorted pathTeller).reply [] "user" "path") = some ("C:\\new" : Text) ∧
      told ((sorted (pathTeller.merge passThrough)).reply [0] "user" "path") =
        some ("C:\new" : Text)) ∧
    (told (((sorted greeter).onRoster (·.setVar "user" "topic" (some Topic.begin))).reply []
        "user" "request") = some ("ERR: No Reply Matched" : Text) ∧
      told (((sorted (greeter.merge passThrough)).onRoster
        (·.setVar "user" "topic" (some Topic.begin))).reply [0] "user" "request") = some replyMark) ∧
    (told ((sorted includingBegin).reply [] "user" "request") = some ("ERR: No Reply Matched" : Text) ∧
      told ((sorted (includingBegin.merge passThrough)).reply [0] "user" "request") =
        some replyMark) ∧
    lastMatchOf ((sorted topicless).reply [] "user" "hello") = [] ∧
    lastMatchOf ((sorted (topicless.merge passThrough)).reply [0] "user" "hello") =
      ("request" : Text) := by
  have habsent : ∀ s ∈ [pathTeller, greeter, includingBegin, topicless],
      s.topics.has Topic.begin = false := by
    decide
  refine ⟨fun s hs => ⟨habsent s hs, sameLive_sorted s _⟩, ⟨?_, ?_⟩, ⟨?_, ?_⟩, ⟨?_, ?_⟩, ?_, ?_⟩
  all_goals decide +kernel

end Bot

end Dialogue
