import Dialogue.Proofs.Echo
import Dialogue.Proofs.LastMatch
import Dialogue.Proofs.OwnText
import Dialogue.Proofs.Settled
import Dialogue.Proofs.Words

/-! Redirects. Where nothing but a redirect answers a message, its target is answered instead, one
deeper than if it were the message, and the markup of the reply is carried out once more. -/
namespace Dialogue

open Answering Answer Expansion Markup

namespace IsLiteral

variable {t : Text}

theorem settled (h : IsLiteral t) : Settled t := by
  refine settled_of_not_mem ?_ ?_ ?_ (Text.find?_of_not_mem opens_readArray ?_) ⟨?_, ?_⟩
  all_goals exact h.not_mem (by decide)

/-- What a redirect makes of its target before it carries out the markup. -/
theorem trim_remove (h : IsLiteral t) : Text.trim (Weight.remove t) = t := by
  have hweight : Weight.remove t = t :=
    Text.edit_of_not_mem (Weight.opens_read.map _) (h.not_mem (by decide))
  rw [hweight, trim_of_collapse h.words]

end IsLiteral

/-- The only response of the rule is a redirect. -/
structure Rule.LeadsTo (r : Rule) (t : Text) : Prop where
  conditions : r.conditions = []
  replies : r.replies = []
  redirect : r.redirect = some t

/-- The only response of the rule is a reply, and there is no markup in it. -/
structure Rule.Speaks (r : Rule) (text : Text) : Prop where
  conditions : r.conditions = []
  redirect : r.redirect = none
  replies : r.replies = [text]
  ne : text ≠ []
  settled : Settled text

/-! ### One step deeper -/

/-- The answer goes deeper than it may. -/
def pastLimit (limit : Nat) : StepKind := fun depth _ _ => limit < depth

namespace Answer

variable {a : Asking} {R₀ R : Bot → Bot → Prop} {c d : Bot}

theorem topicFor_of_unread (hR : Bot.Unread a.user R) (hcd : R c d) :
    topicFor a c = topicFor a d ∧ R (settled a c) (settled a d) := by
  have hvar := (hR.alike hcd a.playbook).var "topic"
  constructor
  · simp only [topicFor, hvar]
  · simp only [settled, hvar]
    split
    · exact hcd
    · exact hR.setUserVar hcd _ _

/-- Nothing looks back at the bot's last reply. -/
def LooksAhead (p : Playbook) : Prop := ∀ name, p.lookbacks.has name = false

theorem matchPrevious_of_looksAhead {p : Playbook} (h : LooksAhead p) (b : Bot)
    (user topic message : Text) :
    Selection.matchPrevious b p user topic message = .ok (none, 0) := by
  have hlooks : p.looksBack (p.topics.tree p.depth topic) = false := by
    rw [Playbook.looksBack, List.any_eq_false]
    intro name _
    rw [h name]
    exact Bool.false_ne_true
  rw [Selection.matchPrevious]
  simp only [hlooks]
  rfl

/-- Then the user's own message is answered like the target of a redirect. -/
theorem sought_of_unread (h : LooksAhead a.playbook) (hR : Bot.Unread a.user R) (hcd : R c d)
    (isFirst isFirst' : Bool) (topic message : Text) :
    sought a isFirst topic message c = sought a isFirst' topic message d := by
  have halike := hR.alike hcd a.playbook
  have hfollowed : ∀ isFirst b, followed a isFirst topic message b = .ok (none, 0) := by
    intro isFirst b
    rw [followed]
    split
    · exact matchPrevious_of_looksAhead h b a.user topic message
    · rfl
  simp only [sought, hfollowed, halike.trigger]

theorem parallel_deeper (h : LooksAhead a.playbook) (hR₀ : Bot.Unread a.user R₀)
    (hR : Bot.Unread a.user R)
    (learn : ∀ {c d}, R₀ c d → ∀ pattern, R (c.onRoster (·.setLastMatch a.user pattern))
      (d.onRoster (·.setLastMatch a.user pattern)))
    (bad : StepKind) {depth deeper : Nat} (hdepth : depth ≤ a.playbook.depth)
    (hdeeper : deeper ≤ a.playbook.depth) (message : Text) :
    Parallel R₀ R bad a a depth deeper message where
  before := hR₀
  after := hR
  learn := learn
  markup := ⟨rfl, rfl, rfl, rfl⟩
  within := hdepth
  within' := hdeeper
  topicFor hcd _ := topicFor_of_unread hR₀ hcd
  sought hcd topic _ := sought_of_unread h hR₀ hcd _ _ topic message

/-- Marks that the limit has been passed. -/
def beyond (limit : Nat) : Answerer := fun _ _ message => do
  let _ ← openStep { depth := limit + 1, topic := [], message }
  return []

/-- An answer is what it is one or more steps deeper, as long as that does not pass the limit. By
induction on the steps that are left. -/
theorem mirrors_deeper (h : LooksAhead a.playbook) (hR : Bot.Unread a.user R) (steps : Nat)
    {depth deeper : Nat} (hle : depth ≤ deeper) (hsteps : deeper + steps = a.playbook.depth + 1)
    (message : Text) : Mirrors R (pastLimit a.playbook.depth) (resolve a depth false message)
      ((respond a)^[steps] (beyond a.playbook.depth) deeper false message) := by
  induction steps generalizing depth deeper message with
  | zero =>
    constructor
    · intro p q _ hstrays
      exact absurd
        ⟨_, List.mem_append_right _ (List.mem_singleton_self _), Nat.lt_succ_self _⟩ hstrays
    · rintro q ⟨s, hs, hbad⟩
      exact ⟨s, List.mem_append_left _ hs, hbad⟩
  | succ steps ih =>
    have hdeeper : deeper ≤ a.playbook.depth := by
      omega
    have hparallel := parallel_deeper h hR hR hR.setLastMatch (pastLimit a.playbook.depth)
      (hle.trans hdeeper) hdeeper message
    rw [iterate_respond_succ, resolve_eq_respond]
    exact hparallel.mirrors (ih (by omega) (by omega))

/-- Answers the target of a redirect of the message like `resolve`, but marks when the limit has
been passed. -/
def marking (a : Asking) : Answerer := (respond a)^[a.playbook.depth] (beyond a.playbook.depth)

/-- The target of a redirect and a message agree, if they are answered by bots that at most remember
different triggers. -/
theorem agree_marking (a : Asking) (h : LooksAhead a.playbook) (message : Text) {p q : Process}
    (hpq : p.Beside (Bot.ExceptMatch a.user) q)
    (hstrays : ¬ ((marking a 1 false message).run.run q).2.Strays (pastLimit a.playbook.depth)) :
    Agree (Bot.ExceptMatch a.user) Bot.SameLive a p ((resolve a 0 false message).run.run p)
      ((marking a 1 false message).run.run q) := by
  obtain ⟨limit, hlimit⟩ : ∃ limit, limit = a.playbook.depth := ⟨_, rfl⟩
  rw [marking, ← hlimit] at hstrays ⊢
  cases limit with
  | zero =>
    refine absurd ⟨{ depth := 1, topic := [], message }, ?_, Nat.zero_lt_one⟩ hstrays
    exact List.mem_append_right _ (List.mem_singleton_self _)
  | succ steps =>
    have hone : 1 ≤ a.playbook.depth := by
      omega
    have hparallel := parallel_deeper h (Bot.unread_exceptMatch a.user) (Bot.unread_sameLive a.user)
      (fun hcd => hcd.same) (pastLimit a.playbook.depth) (Nat.zero_le _) hone message
    rw [iterate_respond_succ, hlimit] at hstrays ⊢
    rw [resolve_eq_respond]
    refine hparallel.respond (fun other => ?_) hpq hstrays
    exact mirrors_deeper h (Bot.unread_sameLive a.user) steps (by omega) (by omega) other

/-! ### The message -/

theorem sought_of_chooses {b : Bot} {topic message : Text} {found : Match}
    (h : Chooses b a topic message found) : sought a true topic message b = .ok (some found) := by
  cases h with
  | previous hprevious =>
    simp only [sought, followed, if_true, hprevious]
    rfl
  | trigger hprevious htrigger =>
    simp only [sought, followed, if_true, hprevious, htrigger]
    rfl

theorem run_speak_redirect {r : Rule} {t : Text} (h : r.LeadsTo t)
    (expand redirect : Text → Answering Text) (q : Process) :
    (speak expand redirect r).run.run q =
      (expand (Text.trim (Weight.remove t)) >>= fun target => redirect (Text.lower target)).run.run
        { q with draws := q.draws.tail } := by
  have hresponses : r.responses = [(.redirect t, Weight.ofReply t)] := by
    rw [Rule.responses, h.redirect, h.replies]
    rfl
  rw [speak, h.conditions, firstCondition, pure_bind]
  dsimp only
  rw [run_bind, run_drawResponse hresponses (Weight.ofReply_pos t)]

/-- The rule that is found has been put on record; what is left is to answer with it. -/
theorem run_respond_found {depth : Nat} {topic message : Text} {m : Match} {q : Process}
    (hdepth : depth ≤ a.playbook.depth)
    (htopic : (q.bot.roster.var? a.user "topic").getD Topic.default = topic)
    (hthere : a.playbook.topics.has topic = true)
    (hsought : sought a (depth == 0) topic message q.bot = .ok (some m)) : ∃ r,
    (∀ call, (respond a call depth false message).run.run q =
      (finish a call depth topic message (some m)).run.run r) ∧
      r.bot = q.bot.onRoster (·.setLastMatch a.user m.rule.pattern) ∧
        r.steps.length = q.steps.length + 1 := by
  obtain ⟨r, hrun, hbot, -, hplaces⟩ := run_findRule_sought a (depth == 0) q.steps.length topic
    message { q with steps := q.steps ++ [{ depth, topic, message }] }
  rw [hsought] at hrun hbot
  refine ⟨r, fun call => ?_, hbot, ?_⟩
  · rw [respond_eq _ _ hdepth, run_bind, run_currentTopic htopic hthere]
    dsimp only
    rw [run_openStep, run_bind, hrun]
  · have hlength := congrArg List.length hplaces
    simpa only [Process.places, List.length_map, List.length_append, List.length_singleton]
      using hlength

/-- What becomes of the answer to a target. -/
def passOn (a : Asking) (call : Answerer) (turn : Turn) (text : Text) : Answering Text :=
  if text = [] then setback .noReply else expand a call turn text

theorem run_finish_redirect {t : Text} {m : Match} (h : m.rule.LeadsTo t) (ht : IsLiteral t)
    (call : Answerer) (depth : Nat) (topic message : Text) (q : Process) :
    (finish a call depth topic message (some m)).run.run q =
      (call (depth + 1) false t >>= passOn a call
        { depth, message, topic, stars := m.stars, botStars := m.botStars }).run.run
          { q with draws := q.draws.tail } := by
  rw [finish, run_bind, run_speak_redirect h, ht.trim_remove, run_bind,
    run_expand_settled ht.settled]
  dsimp only
  rw [ht.lower, run_bind]
  rfl

theorem run_finish_reply {text : Text} {m : Match} (h : m.rule.Speaks text) (call : Answerer)
    (depth : Nat) (topic message : Text) (q : Process) :
    (finish a call depth topic message (some m)).run.run q =
      (.ok text, { q with draws := q.draws.tail }) := by
  rw [finish, run_bind, run_speak h.conditions h.redirect h.replies]
  dsimp only
  rw [if_neg h.ne, run_expand_settled h.settled]

theorem mirrors_passOn (h : LooksAhead a.playbook) {turn : Turn} (hturn : turn.depth = 0)
    (text : Text) :
    Mirrors Bot.SameLive (pastLimit a.playbook.depth) (passOn a (resolve a) turn text)
      (passOn a (marking a) turn text) := by
  rw [passOn, passOn]
  split
  · exact .setback (Bot.unread_sameLive a.user) _
  · refine .expand (Bot.unread_sameLive a.user) ⟨rfl, rfl, rfl, rfl⟩ rfl rfl (fun other => ?_) text
    rw [hturn]
    exact mirrors_deeper h (Bot.unread_sameLive a.user) a.playbook.depth (Nat.le_refl 1)
      (Nat.add_comm 1 a.playbook.depth) other

end Answer

namespace Bot

variable {b : Bot} {p : Playbook} {user message t : Text} {found : Match} {draws : List Nat}

theorem exceptMatch_receive (b : Bot) (p : Playbook) (user pattern : Text) :
    (b.receive p user).ExceptMatch user
      ((b.receive p user).onRoster (·.setLastMatch user pattern)) :=
  exceptMatch_setLastMatch (congrArg Option.isSome (b.roster.profile?_alter_self user p.settle))
    pattern

/-- The message is answered by a rule that only redirects to a literal text, which would be a
message in its final form. Nothing is done before the reply. -/
structure Redirects (b : Bot) (p : Playbook) (user message t : Text) (found : Match) : Prop where
  playbook : b.playbook = some p
  absent : p.topics.has Topic.begin = false
  ahead : LooksAhead p
  chosen : Chooses (b.receive p user) ⟨user, p⟩ ((b.receive p user).topicOf user)
    (p.canon.format false message) found
  rule : found.rule.LeadsTo t
  literal : IsLiteral t
  form : p.canon.format false t = t

/-- The message that is answered by the redirect. -/
def redirectTurn (b : Bot) (p : Playbook) (user message : Text) (found : Match) : Turn where
  message := p.canon.format false message
  topic := (b.receive p user).topicOf user
  stars := found.stars
  botStars := found.botStars

/-- The redirect takes one lot, and its rule is remembered; then its target is answered. -/
theorem Redirects.run (h : b.Redirects p user message t found) (draws : List Nat) : ∃ r,
    (∀ call, (respond ⟨user, p⟩ call 0 false (p.canon.format false message)).run.run
          { bot := b.onRoster (·.welcome user), draws } =
        (call 1 false t >>= passOn ⟨user, p⟩ call (b.redirectTurn p user message found)).run.run r) ∧
      r.bot = (b.receive p user).onRoster (·.setLastMatch user found.rule.pattern) ∧
        r.draws = draws.tail := by
  obtain ⟨r, hrun, hbot, hdraws, -⟩ := run_findRule_sought ⟨user, p⟩ true 0
    ((b.receive p user).topicOf user) (p.canon.format false message)
    { bot := b.receive p user
      steps := [{ depth := 0, topic := (b.receive p user).topicOf user
                  message := p.canon.format false message }]
      draws }
  rw [sought_of_chooses h.chosen] at hrun hbot
  refine ⟨{ r with draws := r.draws.tail }, fun call => ?_, hbot, congrArg List.tail hdraws⟩
  rw [respond_eq _ _ (Nat.zero_le _), run_bind, run_receive rfl h.chosen.has]
  dsimp only
  rw [run_openStep, run_bind]
  simp only [beq_self_eq_true, List.length_nil, List.nil_append, hrun]
  exact run_finish_redirect h.rule h.literal call 0 _ _ r

/-- A message is answered alike before and after its user has been received. -/
theorem run_respond_receive (hthere : p.topics.has ((b.receive p user).topicOf user) = true)
    (call : Answerer) (text : Text) (draws : List Nat) :
    (respond ⟨user, p⟩ call 0 false text).run.run { bot := b.onRoster (·.welcome user), draws } =
      (respond ⟨user, p⟩ call 0 false text).run.run { bot := b.receive p user, draws } := by
  rw [respond_eq _ _ (Nat.zero_le _), run_bind, run_receive rfl hthere, run_bind,
    run_currentTopic rfl hthere]
  rfl

/-- The answer does not depend on what would be answered past the limit, so the limit is not hit. -/
def StaysWithin (b : Bot) (p : Playbook) (draws : List Nat) (user message : Text) : Prop :=
  ∀ past : Answerer, ((respond ⟨user, p⟩)^[p.depth + 1] past 0 false
      (p.canon.format false message)).run.run { bot := b.onRoster (·.welcome user), draws } =
    b.answered p draws user message

/-- The limit is not hit where the target has no redirects of its own. -/
theorem Redirects.staysWithin (h : b.Redirects p user message t found) (hdepth : 1 ≤ p.depth)
    {m : Match} (hsought : sought ⟨user, p⟩ false ((b.receive p user).topicOf user) t
      ((b.receive p user).onRoster (·.setLastMatch user found.rule.pattern)) = .ok (some m))
    {text : Text} (hspeaks : m.rule.Speaks text) (draws : List Nat) :
    b.StaysWithin p draws user message := by
  obtain ⟨r, hrun, hbot, -⟩ := h.run draws
  have htopic : r.bot.topicOf user = (b.receive p user).topicOf user := by
    have halike := (exceptMatch_receive b p user found.rule.pattern).alike p
    rw [topicOf, topicOf, hbot, ← halike.var]
  rw [← hbot] at hsought
  obtain ⟨q, hfound, -⟩ := run_respond_found (a := ⟨user, p⟩) hdepth htopic h.chosen.has hsought
  have hsame : ∀ call, (respond ⟨user, p⟩ (respond ⟨user, p⟩ call) 0 false
      (p.canon.format false message)).run.run { bot := b.onRoster (·.welcome user), draws } =
        (.ok text, { q with draws := q.draws.tail }) := by
    intro call
    rw [hrun, run_bind, hfound, run_finish_reply hspeaks]
    dsimp only
    rw [passOn, if_neg hspeaks.ne, run_expand_settled hspeaks.settled]
  intro past
  obtain ⟨limit, hlimit⟩ := Nat.exists_eq_add_of_le hdepth
  have hlevels : (respond ⟨user, p⟩)^[p.depth + 1] past =
      respond ⟨user, p⟩ (respond ⟨user, p⟩ ((respond ⟨user, p⟩)^[limit] past)) := by
    rw [hlimit, Nat.add_comm 1 limit, Function.iterate_succ_apply', Function.iterate_succ_apply']
  rw [hlevels, hsame, answered, answer_eq_resolve h.absent, resolve_eq_respond, resolve_eq_respond,
    hsame]

theorem not_pastLimit_answered (b : Bot) (p : Playbook) (draws : List Nat) (user message : Text) :
    ¬ (b.answered p draws user message).2.Strays (pastLimit p.depth) := by
  rintro ⟨s, hs, hbad⟩
  obtain ⟨new, hnew, hle, -⟩ := moves_answer (Nested.admitsAnswers ⟨user, p⟩)
    (p.canon.format false message) { bot := b.onRoster (·.welcome user), draws }
  have hmem : s.depth ∈ new := by
    rw [List.map_nil, List.nil_append] at hnew
    rw [← hnew]
    exact List.mem_map_of_mem hs
  exact Nat.not_lt.mpr (hle s.depth hmem).2 hbad

/-- The run that answers the target as if it were the message, and passes on the answer. -/
def targeted (b : Bot) (p : Playbook) (draws : List Nat) (user message t : Text) (found : Match) :
    Except Fault Text × Process :=
  (answer ⟨user, p⟩ (p.canon.format false t) >>= passOn ⟨user, p⟩ (resolve ⟨user, p⟩)
    (b.redirectTurn p user message found)).run.run { bot := b.onRoster (·.welcome user), draws }

theorem Redirects.answered_target (h : b.Redirects p user message t found) :
    b.answered p draws user t = (respond ⟨user, p⟩ (resolve ⟨user, p⟩) 0 false t).run.run
      { bot := b.receive p user, draws } := by
  rw [answered, h.form, answer_eq_resolve h.absent, ← run_respond_receive h.chosen.has,
    ← resolve_eq_respond]

/-- What answers a target is handed to the message that is redirected to it. The bots are the same
so far, unless a pattern is at fault. -/
structure Hands (b : Bot) (p : Playbook) (d : Nat) (draws : List Nat) (user message t : Text)
    (found : Match) (result : Except Fault Text) (r : Process) : Prop where
  same : (b.answered p draws user t).1 = result
  bot : (b.answered p draws user t).2.bot.ExceptMatch user r.bot
  live : (∀ pattern cause, result ≠ .error (.pattern pattern cause)) →
    (b.answered p draws user t).2.Beside SameLive r
  passed : ∀ text, result = .ok text → b.answered p (d :: draws) user message =
    (passOn ⟨user, p⟩ (marking ⟨user, p⟩) (b.redirectTurn p user message found) text).run.run r
  refused : ∀ fault, result = .error fault →
    b.answered p (d :: draws) user message = (.error fault, r)

/-- The bots are the same once the same is remembered of what was said. -/
def ExceptHistory (user : Text) (b c : Bot) : Prop :=
  ∀ history : History, (b.onRoster (·.alter user fun q => { q with history })).SameLive
    (c.onRoster (·.alter user fun q => { q with history }))

theorem alter_history_record (b : Bot) (user input reply : Text) (history : History) :
    (b.onRoster (·.record user input reply)).onRoster (·.alter user fun q => { q with history }) =
      b.onRoster (·.alter user fun q => { q with history }) := by
  refine congrArg (fun r => { b with roster := r }) ?_
  show (b.roster.record user input reply).alter user _ = _
  rw [Roster.record, Roster.alter_alter]
  rfl

theorem SameLive.exceptHistory_record {c : Bot} (h : b.SameLive c)
    (input reply input' reply' : Text) :
    (b.onRoster (·.record user input reply)).ExceptHistory user
      (c.onRoster (·.record user input' reply')) := by
  intro history
  rw [alter_history_record, alter_history_record]
  exact h.onRoster _

theorem SameLive.exceptHistory_record_left {c : Bot} (h : b.SameLive c) (input reply : Text) :
    (b.onRoster (·.record user input reply)).ExceptHistory user c := by
  intro history
  rw [alter_history_record]
  exact h.onRoster _

theorem ExceptHistory.vars {c : Bot} (h : b.ExceptHistory user c) :
    (b.roster.profile user).vars = (c.roster.profile user).vars := by
  have hroster := congrArg (·.profile? user) (h {}).roster
  have hb := b.roster.profile?_alter_self user fun q => { q with history := {} }
  have hc := c.roster.profile?_alter_self user fun q => { q with history := {} }
  exact (Profile.mk.inj (Option.some.inj (hb.symm.trans (hroster.trans hc)))).1

variable {d : Nat} (h : b.Redirects p user message t found)
  (hwithin : b.StaysWithin p (d :: draws) user message)

include h hwithin

theorem Redirects.hands : ∃ result r, b.Hands p d draws user message t found result r := by
  -- Past the limit stands what marks that it is passed, which the answer does not get to.
  have hmarked := hwithin (beyond p.depth)
  obtain ⟨r, hrun, hbot, hdraws⟩ := h.run (d :: draws)
  rw [iterate_respond_succ, hrun, run_bind] at hmarked
  rcases htarget : (marking ⟨user, p⟩ 1 false t).run.run r with ⟨result, r'⟩
  rw [marking] at htarget
  rw [htarget] at hmarked
  have hgood : ¬ r'.Strays (pastLimit p.depth) := by
    intro hbad
    refine b.not_pastLimit_answered p (d :: draws) user message ?_
    rw [← hmarked]
    cases result with
    | error fault => exact hbad
    | ok text => exact (mirrors_passOn (a := ⟨user, p⟩) h.ahead rfl text).stays r' hbad
  have hbeside : Process.Beside (ExceptMatch user) { bot := b.receive p user, draws } r := by
    refine ⟨?_, hdraws.symm⟩
    rw [hbot]
    exact exceptMatch_receive b p user found.rule.pattern
  have hagree := agree_marking ⟨user, p⟩ h.ahead t hbeside
  rw [marking, htarget, resolve_eq_respond, ← h.answered_target] at hagree
  obtain ⟨hresult, hprocess⟩ := hagree hgood
  refine ⟨result, r', hresult, (hagree hgood).exceptMatch, fun hpattern => ?_, ?_, ?_⟩
  · rcases hprocess with hlive | ⟨-, ⟨hnone, -⟩ | ⟨pattern, cause, hfault⟩⟩
    · exact hlive
    · have htopic : topicFor ⟨user, p⟩ (b.receive p user) = some ((b.receive p user).topicOf user) :=
        if_pos h.chosen.has
      rw [htopic] at hnone
      cases hnone
    · exact absurd (hresult.symm.trans hfault) (hpattern pattern cause)
  · rintro text rfl
    exact hmarked.symm
  · rintro fault rfl
    exact hmarked.symm

theorem Redirects.targeted_eq :
    (b.targeted p draws user message t found).1 = (b.answered p (d :: draws) user message).1 ∧
      (b.targeted p draws user message t found).2.bot.ExceptMatch user
        (b.answered p (d :: draws) user message).2.bot := by
  obtain ⟨result, r, hhands⟩ := h.hands hwithin
  have hsame := hhands.same
  rcases htarget : b.answered p draws user t with ⟨result', q⟩
  rw [htarget] at hsame
  obtain rfl : result' = result := hsame
  rw [answered] at htarget
  rw [targeted, run_bind, htarget]
  cases result' with
  | error fault =>
    have hbot := hhands.bot
    rw [answered, htarget] at hbot
    rw [hhands.refused fault rfl]
    exact ⟨rfl, hbot⟩
  | ok text =>
    have hlive := hhands.live (by rintro _ _ ⟨⟩)
    have hgood := b.not_pastLimit_answered p (d :: draws) user message
    rw [answered, htarget] at hlive
    rw [hhands.passed text rfl] at hgood ⊢
    obtain ⟨hresult, hprocess⟩ :=
      (mirrors_passOn (a := ⟨user, p⟩) h.ahead rfl text).same q r hlive hgood
    exact ⟨hresult, hprocess.bot.exceptMatch user⟩

theorem Redirects.reply_settled {e : Exchange} (he : (b.reply draws user t).result = .ok e)
    (hne : e.reply ≠ []) (hsettled : Settled e.reply) :
    ∃ e', (b.reply (d :: draws) user message).result = .ok e' ∧ e'.reply = e.reply ∧
      (b.reply draws user t).bot.ExceptHistory user (b.reply (d :: draws) user message).bot := by
  obtain ⟨result, r, hsame, -, hlive, hpassed, -⟩ := h.hands hwithin
  obtain ⟨reply, q, hanswered, rfl⟩ := answered_of_ok h.playbook he
  rw [hanswered] at hsame hlive
  have hrun := hpassed reply hsame.symm
  change reply ≠ [] at hne
  change Settled reply at hsettled
  rw [passOn, if_neg hne, run_expand_settled hsettled] at hrun
  rw [reply_of_text h.playbook hanswered, reply_of_text h.playbook hrun]
  have hbots := (hlive fun _ _ hfault => nomatch hsame.trans hfault).bot
  exact ⟨_, rfl, rfl, hbots.exceptHistory_record _ _ _ _⟩

theorem Redirects.reply_silent {e : Exchange} (he : (b.reply draws user t).result = .ok e)
    (hnil : e.reply = []) :
    (b.reply (d :: draws) user message).result.map Exchange.reply =
        setbackResult (b.reply draws user t).bot .noReply ∧
      (b.reply draws user t).bot.ExceptHistory user (b.reply (d :: draws) user message).bot := by
  obtain ⟨result, r, hsame, -, hlive, hpassed, -⟩ := h.hands hwithin
  obtain ⟨reply, q, hanswered, rfl⟩ := answered_of_ok h.playbook he
  rw [hanswered] at hsame hlive
  have hrun := hpassed reply hsame.symm
  change reply = [] at hnil
  rw [passOn, if_pos hnil, run_setback] at hrun
  have hbots := (hlive fun _ _ hfault => nomatch hsame.trans hfault).bot
  rw [reply_of_text h.playbook hanswered]
  have hsettings : setbackResult r.bot .noReply = setbackResult q.bot .noReply := by
    rw [setbackResult, setbackResult, hbots.settings]
  rw [hsettings] at hrun
  cases hsetback : setbackResult q.bot .noReply with
  | error fault =>
    rw [hsetback] at hrun
    rw [reply_of_fault h.playbook hrun]
    exact ⟨hsetback.symm, hbots.exceptHistory_record_left _ _⟩
  | ok text =>
    rw [hsetback] at hrun
    rw [reply_of_text h.playbook hrun]
    exact ⟨hsetback.symm, hbots.exceptHistory_record _ _ _ _⟩

theorem Redirects.reply_fault {fault : Fault}
    (hfault : (b.reply draws user t).result = .error fault) :
    (b.reply (d :: draws) user message).result = .error fault ∧
      (b.reply draws user t).bot.ExceptMatch user (b.reply (d :: draws) user message).bot := by
  obtain ⟨result, r, hsame, hbot, -, -, hrefused⟩ := h.hands hwithin
  obtain ⟨q, hanswered⟩ := answered_of_error h.playbook hfault
  rw [hanswered] at hsame hbot
  rw [reply_of_fault h.playbook hanswered, reply_of_fault h.playbook (hrefused fault hsame.symm)]
  exact ⟨rfl, hbot⟩

theorem Redirects.vars (hsettled : ∀ e, (b.reply draws user t).result = .ok e →
      e.reply = [] ∨ Settled e.reply) :
    ((b.reply draws user t).bot.roster.profile user).vars =
      ((b.reply (d :: draws) user message).bot.roster.profile user).vars := by
  cases hresult : (b.reply draws user t).result with
  | error fault => exact (h.reply_fault hwithin hresult).2.vars
  | ok e =>
    by_cases hnil : e.reply = []
    · exact (h.reply_silent hwithin hresult hnil).2.vars
    · obtain ⟨e', -, -, hbots⟩ :=
        h.reply_settled hwithin hresult hnil ((hsettled e hresult).resolve_left hnil)
      exact hbots.vars

end Bot

/-! ### Scripts -/

/-- A script in which no rule looks back, nothing is done before the replies, and nothing is put in
the place of the words of a message. -/
structure Script.Straight (s : Script) : Prop where
  absent : s.topics.has Topic.begin = false
  previous : ∀ e ∈ Table.entries s.topics, ∀ r ∈ e.2.rules, r.previous = none
  substitutions : s.substitutions = {}

theorem Script.Straight.looksAhead {s : Script} (h : s.Straight) (settings : Settings) (depth : Nat) :
    LooksAhead (Playbook.build settings depth s) := by
  intro name
  have hnone : (Playbook.build settings depth s).lookbacks = {} := by
    refine congrArg Table.mk (List.filterMap_eq_nil_iff.mpr ?_)
    rintro ⟨key, topic⟩ htopic
    have hindex : Lookback.index topic = [] := Lookback.index_eq_nil.mpr (h.previous _ htopic)
    simp only [hindex]
  rw [hnone]
  rfl

namespace Bot

/-- What a message that is redirected has in common with its target, which it is answered like: the
markup of the answer is carried out once more, and there has to be an answer. -/
structure LedTo (b : Bot) (p : Playbook) (d : Nat) (draws : List Nat) (user message t : Text)
    (found : Match) : Prop where
  again : (b.targeted p draws user message t found).1 = (b.answered p (d :: draws) user message).1 ∧
    (b.targeted p draws user message t found).2.bot.ExceptMatch user
      (b.answered p (d :: draws) user message).2.bot
  reply : ∀ e, (b.reply draws user t).result = .ok e → e.reply ≠ [] → Settled e.reply →
    ∃ e', (b.reply (d :: draws) user message).result = .ok e' ∧ e'.reply = e.reply ∧
      (b.reply draws user t).bot.ExceptHistory user (b.reply (d :: draws) user message).bot
  silence : ∀ e, (b.reply draws user t).result = .ok e → e.reply = [] →
    (b.reply (d :: draws) user message).result.map Exchange.reply =
        setbackResult (b.reply draws user t).bot .noReply ∧
      (b.reply draws user t).bot.ExceptHistory user (b.reply (d :: draws) user message).bot
  fault : ∀ fault, (b.reply draws user t).result = .error fault →
    (b.reply (d :: draws) user message).result = .error fault ∧
      (b.reply draws user t).bot.ExceptMatch user (b.reply (d :: draws) user message).bot
  vars : (∀ e, (b.reply draws user t).result = .ok e → e.reply = [] ∨ Settled e.reply) →
    ((b.reply draws user t).bot.roster.profile user).vars =
      ((b.reply (d :: draws) user message).bot.roster.profile user).vars

end Bot

/-- A message that is only redirected is answered like its target, apart from what it draws for the
redirect, as long as the limit of the depth is not passed. If the target has an answer in which no
markup is left, it is the answer to the message. -/
theorem redirect_answers_target {s : Script} (hs : s.Straight) {settings : Settings} {depth : Nat}
    {p : Playbook} (hp : Playbook.ofScript settings depth s = .ok p) {t : Text} (ht : IsLiteral t)
    (hform : if p.canon.utf8 then p.canon.punctuation.strip t = t else ∀ c ∈ t, c.toNat < 0x80)
    {b : Bot} (hb : b.playbook = some p) {user message : Text} {found : Match}
    (hchosen : Chooses (b.receive p user) ⟨user, p⟩ ((b.receive p user).topicOf user)
      (p.canon.format false message) found)
    (hrule : found.rule.LeadsTo t) {d : Nat} {draws : List Nat}
    (hwithin : b.StaysWithin p (d :: draws) user message) :
    b.LedTo p d draws user message t found := by
  obtain rfl := Playbook.eq_build hp
  have hnone : s.substitutions.entries = [] := congrArg Table.entries hs.substitutions
  have h : b.Redirects (Playbook.build settings depth s) user message t found := {
    playbook := hb
    absent := hs.absent
    ahead := hs.looksAhead settings depth
    chosen := hchosen
    rule := hrule
    literal := ht
    form := Canon.format_literal _ (Playbook.entries_substitution hnone settings depth) ht
      hform }
  exact {
    again := h.targeted_eq hwithin
    reply := fun e he hne hsettled => h.reply_settled hwithin he hne hsettled
    silence := fun e he hnil => h.reply_silent hwithin he hnil
    fault := fun fault hfault => h.reply_fault hwithin hfault
    vars := fun hsettled => h.vars hwithin hsettled }

/-! ### Rules in their order -/

/-- The playbook of one topic whose rules are written in the order in which they are tried. -/
def inOrder (settings : Settings) (rules : List Rule) : Playbook :=
  { Playbook.build settings 50 (single rules) with
    ranked := ⟨[("random", rules.map fun r => (Entry.ofText r.pattern).pattern)]⟩ }

theorem build_single (settings : Settings) {rules : List Rule}
    (hprevious : ∀ r ∈ rules, r.previous = none)
    (hsorted : (rules.map fun r => Entry.ofText r.pattern).Pairwise fun a b =>
      (Entry.order a b).isLE) :
    Playbook.build settings 50 (single rules) = inOrder settings rules := by
  rw [inOrder, ← ranked_single hprevious hsorted]
  rfl

theorem straight_single {rules : List Rule} (h : ∀ r ∈ rules, r.previous = none) :
    (single rules).Straight where
  absent := rfl
  previous e he r hr := by
    obtain rfl := List.mem_singleton.mp he
    exact h r hr
  substitutions := rfl

namespace Bot

/-- A bot that has sorted the rules of one topic. -/
def speaking (settings : Settings) (rules : List Rule) : Bot where
  settings
  playbook := some (Playbook.build settings 50 (single rules))

def greetings : List Rule :=
  [{ pattern := "hello", replies := ["Hello there."] }, { pattern := "hi", redirect := some "hello" }]

def hailed : Match where
  topic := "random"
  rule := { pattern := "hi", redirect := some "hello" }
  viaPrevious := false
  stars := []

def saluted : Match where
  topic := "random"
  rule := { pattern := "hello", replies := ["Hello there."] }
  viaPrevious := false
  stars := []

theorem build_greetings : Playbook.build {} 50 (single greetings) = inOrder {} greetings :=
  build_single {} (by decide) (by decide +kernel)

theorem redirects_hailed : (speaking {} greetings).Redirects (Playbook.build {} 50 (single greetings))
    "user" "Hi!" "hello" hailed := by
  refine ⟨rfl, rfl, (straight_single (by decide)).looksAhead {} 50, ?_, ⟨rfl, rfl, rfl⟩, by decide, ?_⟩
  · rw [build_greetings]
    refine .trigger (k := 0) (n := 2) ?_ ?_
    · exact ok_of_toOption (by decide +kernel)
    · exact ok_of_toOption (by decide +kernel)
  · decide +kernel

theorem hailed_alike :
    told ((speaking {} greetings).reply [] "user" "hello") = some ("Hello there." : Text) ∧
      told ((speaking {} greetings).reply [0] "user" "Hi!") = some ("Hello there." : Text) := by
  have hsettled : Settled "Hello there." :=
    settled_of_not_mem (by decide) (by decide) (by decide) (by decide) (by decide)
  have h := redirects_hailed
  have hwithin : (speaking {} greetings).StaysWithin (Playbook.build {} 50 (single greetings)) [0]
      "user" "Hi!" := by
    refine h.staysWithin (m := saluted) (by decide) ?_ ⟨rfl, rfl, rfl, by decide, hsettled⟩ [0]
    rw [build_greetings]
    exact ok_of_toOption (by decide +kernel)
  have hascii : ∀ c ∈ ("hello" : Text), c.toNat < 0x80 := List.all_iff_forall_prop.mp (by decide)
  have hlenient : ({} : Settings).strict = false := rfl
  have hled := redirect_answers_target (straight_single (by decide))
    (Playbook.ofScript_of_lenient hlenient 50 (single greetings)) h.literal hascii h.playbook h.chosen
    h.rule hwithin
  have htold : told ((speaking {} greetings).reply [] "user" "hello") =
      some ("Hello there." : Text) := by
    rw [speaking, build_greetings]
    decide +kernel
  refine ⟨htold, ?_⟩
  obtain ⟨e, he, htext⟩ := Option.map_eq_some_iff.mp htold
  rw [← htext] at hsettled
  obtain ⟨e', he', hsame, -⟩ := hled.reply e (ok_of_toOption he) (by rw [htext]; decide) hsettled
  rw [told, he', ← htext, ← hsame]
  rfl

/-- The answers to a message and to the target its rule leads to. -/
structure Parted (b : Bot) (s : Script) (message t x y : Text) : Prop where
  sorted : b.playbook = some (Playbook.build b.settings 50 s)
  straight : s.Straight
  literal : IsLiteral message ∧ IsLiteral t
  trigger : ∃ e ∈ Table.entries s.topics, ∃ r ∈ e.2.rules, r.pattern = message ∧
    r.conditions = [] ∧ r.replies = [] ∧ r.redirect = some t
  shallow : ∀ step ∈ (b.answered (Playbook.build b.settings 50 s) [0] "user" message).2.steps,
    step.depth < 50
  told_message : told (b.reply [0] "user" message) = some x
  told_target : told (b.reply [] "user" t) = some y
  ne : x ≠ y

theorem Parted.of_sorted {settings : Settings} {rules : List Rule} {message t x y : Text}
    (hprevious : ∀ r ∈ rules, r.previous = none)
    (hsorted : (rules.map fun r => Entry.ofText r.pattern).Pairwise fun a b =>
      (Entry.order a b).isLE)
    (literal : IsLiteral message ∧ IsLiteral t)
    (trigger : ∃ r ∈ rules, r.pattern = message ∧
      r.conditions = [] ∧ r.replies = [] ∧ r.redirect = some t)
    (hshallow : ∀ step ∈ (Bot.answered { settings, playbook := some (inOrder settings rules) }
      (inOrder settings rules) [0] "user" message).2.steps, step.depth < 50)
    (hmessage : told (Bot.reply { settings, playbook := some (inOrder settings rules) } [0] "user"
      message) = some x)
    (htarget : told (Bot.reply { settings, playbook := some (inOrder settings rules) } [] "user"
      t) = some y)
    (ne : x ≠ y) : Parted (speaking settings rules) (single rules) message t x y := by
  rw [← build_single settings hprevious hsorted] at hshallow hmessage htarget
  exact ⟨rfl, straight_single hprevious, literal, ⟨_, List.mem_singleton_self _, trigger⟩, hshallow,
    hmessage, htarget, ne⟩

def maps : List Rule :=
  [{ pattern := "path", replies := ["C:\\\\new"] }, { pattern := "map", redirect := some "path" }]

def notes : List Rule :=
  [{ pattern := "remember", replies := ["<set x=1>"] },
    { pattern := "note", redirect := some "remember" }]

def hails : List Rule :=
  [{ pattern := "\x7bweight=5\x7dhi", replies := ["Other."] },
    { pattern := "hello", replies := ["Hello."] }, { pattern := "hi", redirect := some "hello" }]

def agents : List Rule :=
  [{ pattern := "agent 007", replies := ["Hello."] },
    { pattern := "bond", redirect := some "agent 007" }]

def caves : Script where
  topics := ⟨[("random", { rules := greetings }),
    ("cave", { rules := [{ pattern := "hello", replies := ["Echo."] }] })]⟩

/-- A bot whose user is in a topic without a rule for one of the messages. -/
def inCave : Bot where
  playbook := some (Playbook.build {} 50 caves)
  roster := ({} : Roster).setVar "user" "topic" (some "cave")

/-- What is left of the markup is carried out, no answer is an error, another rule may answer the
message or none in the topic of the user, and a message can lose signs that a target keeps. -/
theorem redirect_parted :
    Parted (speaking {} maps) (single maps) "map" "path" "C:\new" "C:\\new" ∧
    Parted (speaking {} notes) (single notes) "note" "remember" "ERR: No Reply Found" "" ∧
    Parted (speaking {} hails) (single hails) "hi" "hello" "Other." "Hello." ∧
    Parted inCave caves "hi" "hello" "ERR: No Reply Matched" "Echo." ∧
    Parted (speaking { utf8 := true, punctuation := "[0-9]" } agents) (single agents) "bond"
      "agent 007" "Hello." "ERR: No Reply Matched" := by
  refine ⟨?_, ?_, ?_, ?_, ?_⟩
  · exact .of_sorted (by decide) (by decide +kernel) (by decide) (by decide) (by decide +kernel)
      (by decide +kernel) (by decide +kernel) (by decide)
  · exact .of_sorted (by decide) (by decide +kernel) (by decide) (by decide) (by decide +kernel)
      (by decide +kernel) (by decide +kernel) (by decide)
  · exact .of_sorted (by decide) (by decide +kernel) (by decide) (by decide) (by decide +kernel)
      (by decide +kernel) (by decide +kernel) (by decide)
  · exact ⟨rfl, ⟨by decide, by decide, rfl⟩, by decide, by decide, by decide +kernel,
      by decide +kernel, by decide +kernel, by decide⟩
  · exact .of_sorted (by decide) (by decide +kernel) (by decide) (by decide) (by decide +kernel)
      (by decide +kernel) (by decide +kernel) (by decide)

end Bot

end Dialogue
