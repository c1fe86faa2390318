import Dialogue.Proofs.Captured
import Dialogue.Proofs.FirstStep
import Dialogue.Proofs.Lots
import Dialogue.Proofs.Passes
import Dialogue.Proofs.Users

/-! Giving back what a user typed. A reply that holds a star says what the star holds, and nothing of
it is carried out, as long as the user cannot write any markup. -/
namespace Dialogue

open Answering Answer Expansion Markup

theorem Table.alter_congr {β : Type} {t : Table β} {key : Text} {absent : β} {f g : β → β}
    (h : f ((t.find? key).getD absent) = g ((t.find? key).getD absent)) :
    t.alter key absent f = t.alter key absent g := by
  obtain ⟨entries⟩ := t
  change f ((entries.lookup key).getD absent) = g ((entries.lookup key).getD absent) at h
  show Table.mk (alterEntry key absent f entries) = ⟨alterEntry key absent g entries⟩
  congr 1
  induction entries with
  | nil =>
    simp only [alterEntry]
    exact congrArg (fun v => [(key, v)]) h
  | cons e entries ih =>
    obtain ⟨k, v⟩ := e
    by_cases hk : k = key
    · subst hk
      simp only [List.lookup_cons, beq_self_eq_true] at h
      simp only [alterEntry, if_true]
      exact congrArg (fun w => (k, w) :: entries) h
    · have hne : (key == k) = false := by simpa using Ne.symm hk
      simp only [List.lookup_cons, hne] at h
      simp only [alterEntry, if_neg hk, ih h]

theorem Roster.alter_congr {r : Roster} {user : Text} {f g : Profile → Profile}
    (h : f (r.profile user) = g (r.profile user)) : r.alter user f = r.alter user g := by
  rw [alter, alter, Table.alter_congr h]

/-! ### The topic of a user -/

/-- What is known of a user who is about to be answered: those in a topic that is not there have
returned to the default one. -/
def Playbook.settle (p : Playbook) (q : Profile) : Profile :=
  if p.topics.has ((q.vars.find? "topic").getD Topic.default) then q
  else { q with vars := q.vars.put "topic" (some Topic.default) }

namespace Bot

variable {b : Bot} {p : Playbook} {user : Text}

/-- The bot that is about to answer a user. -/
def receive (b : Bot) (p : Playbook) (user : Text) : Bot := b.onRoster (·.alter user p.settle)

def topicOf (b : Bot) (user : Text) : Text := (b.roster.var? user "topic").getD Topic.default

theorem topicOf_alter (f : Profile → Profile) : (b.onRoster (·.alter user f)).topicOf user =
    ((f (b.roster.profile user)).vars.find? "topic").getD Topic.default := by
  rw [topicOf, onRoster, Roster.var?, Roster.profile?_alter_self]
  rfl

theorem topicOf_welcome : (b.onRoster (·.welcome user)).topicOf user =
    ((b.roster.profile user).vars.find? "topic").getD Topic.default := b.topicOf_alter id

/-- Who is in a topic that is there stays in it. -/
theorem receive_of_has (h : p.topics.has ((b.onRoster (·.welcome user)).topicOf user) = true) :
    b.receive p user = b.onRoster (·.welcome user) := by
  rw [topicOf_welcome] at h
  have hsettle : p.settle (b.roster.profile user) = id (b.roster.profile user) := if_pos h
  exact congrArg (fun r => { b with roster := r }) (Roster.alter_congr hsettle)

/-- Who is in no topic that is there returns to the default one. -/
theorem receive_of_not_has (h : p.topics.has ((b.onRoster (·.welcome user)).topicOf user) = false) :
    b.receive p user = (b.onRoster (·.welcome user)).onRoster
        (·.setVar user "topic" (some Topic.default)) ∧
      (b.receive p user).topicOf user = Topic.default := by
  rw [topicOf_welcome] at h
  have hsettle : p.settle (b.roster.profile user) =
      { b.roster.profile user with
        vars := (b.roster.profile user).vars.put "topic" (some Topic.default) } := by
    rw [Playbook.settle, if_neg (by rw [Bool.not_eq_true]; exact h)]
  constructor
  · have halter := b.roster.alter_alter user id fun q =>
      { q with vars := q.vars.put "topic" (some Topic.default) }
    exact congrArg (fun r => { b with roster := r }) ((Roster.alter_congr hsettle).trans halter.symm)
  · rw [receive, topicOf_alter, hsettle, Table.put, Table.find?_set_self]
    rfl

theorem run_receive {q : Process} (hq : q.bot = b.onRoster (·.welcome user))
    (hthere : p.topics.has ((b.receive p user).topicOf user) = true) :
    (currentTopic ⟨user, p⟩ false).run.run q =
      (.ok (some ((b.receive p user).topicOf user)), { q with bot := b.receive p user }) := by
  obtain ⟨bot, steps, tried, draws⟩ := q
  obtain rfl : bot = b.onRoster (·.welcome user) := hq
  cases h : p.topics.has ((b.onRoster (·.welcome user)).topicOf user) with
  | true =>
    rw [receive_of_has h] at hthere ⊢
    exact run_currentTopic rfl h
  | false =>
    obtain ⟨hreceive, htopic⟩ := receive_of_not_has h
    rw [htopic] at hthere ⊢
    rw [hreceive]
    simp only [currentTopic, Bool.false_eq_true, if_false]
    rw [run_bot]
    change p.topics.has (((b.onRoster (·.welcome user)).roster.var? user "topic").getD
      Topic.default) = false at h
    simp only [h, hthere, Bool.false_eq_true, if_false, if_true]
    rfl

end Bot

namespace Chooses

variable {b : Bot} {p : Playbook} {user topic message star : Text} {found : Match}

theorem has (h : Chooses b ⟨user, p⟩ topic message found) : p.topics.has topic = true := by
  cases h with
  | previous hprevious => exact Selection.has_of_matchPrevious hprevious
  | trigger _ htrigger => exact Selection.has_of_matchTrigger htrigger

theorem isInfix_star (h : Chooses b ⟨user, p⟩ topic message found) (hstar : star ∈ found.stars) :
    star <:+: message := by
  cases h with
  | previous hprevious =>
    exact Selection.infix_of_tryPattern (Selection.fits_of_matchPrevious hprevious) hstar
  | trigger _ htrigger =>
    exact Selection.infix_of_tryPattern (Selection.fits_of_matchTrigger htrigger) hstar

end Chooses

/-! ### The reply -/

/-- The only reply of the rule gives back the first star inside a text without signs. -/
structure Rule.Echoes (r : Rule) (pre post : Text) : Prop where
  conditions : r.conditions = []
  redirect : r.redirect = none
  replies : r.replies = [pre ++ "<star>" ++ post]
  pre_unmarked : Unmarked pre
  post_unmarked : Unmarked post

namespace Answer

variable {r : Rule} {pre post text : Text}

/-- The only response is drawn, whatever is drawn. -/
theorem run_drawResponse {response : Response} {n : Nat} (hresponses : r.responses = [(response, n)])
    (hn : 0 < n) (q : Process) :
    (drawResponse r).run.run q = (.ok response, { q with draws := q.draws.tail }) := by
  have hne : r.responses ≠ [] := by
    rw [hresponses]
    exact List.cons_ne_nil _ _
  have hdrawn : drawn [n] q.draws < n := @drawn_lt [n] hn q.draws
  rw [run_drawResponse_of_ne hne, hresponses, List.map_cons, List.map_nil, Response.at?, if_pos hdrawn]
  rfl

/-- A rule with one reply and nothing else says that one, whatever is drawn. -/
theorem run_speak (hconditions : r.conditions = []) (hredirect : r.redirect = none)
    (hreplies : r.replies = [text]) (expand redirect : Text → Answering Text) (q : Process) :
    (speak expand redirect r).run.run q = (.ok text, { q with draws := q.draws.tail }) := by
  have hresponses : r.responses = [(.reply text, Weight.ofReply text)] := by
    rw [Rule.responses, hredirect, hreplies]
    rfl
  rw [speak, hconditions, firstCondition, pure_bind]
  dsimp only
  rw [run_bind, run_drawResponse hresponses (Weight.ofReply_pos text)]
  rfl

variable {b : Bot} {p : Playbook} {user message star : Text} {found : Match} {stars : List Text}

/-- What is said by a rule that gives back an inert star, and all that changes meanwhile. -/
theorem run_answer_star (hbegin : p.topics.has Topic.begin = false)
    (hfound : Chooses (b.receive p user) ⟨user, p⟩ ((b.receive p user).topicOf user) message found)
    (hrule : found.rule.Echoes pre post) (hstars : found.stars = star :: stars) (hstar : Inert star)
    (hopen : '<' ∉ star) (hback : '\\' ∉ star) (draws : List Nat) :
    ∃ q last, (answer ⟨user, p⟩ message).run.run { bot := b.onRoster (·.welcome user), draws } =
        (.ok (pre ++ star ++ post), q) ∧
      q.bot = (b.receive p user).onRoster (·.setLastMatch user found.rule.pattern) ∧
        q.steps = [last] ∧ last.message = message ∧ last.matched = some found.rule.pattern := by
  obtain ⟨q, last, hfind, hbot, hsteps, -, hmessage, hmatched⟩ := run_findRule
    (p := { bot := b.receive p user
            steps := [{ depth := 0, topic := (b.receive p user).topicOf user, message }]
            draws }) rfl hfound
  have hanswer : answer ⟨user, p⟩ message =
      respond ⟨user, p⟩ (resolve ⟨user, p⟩) 0 false message := by
    rw [answer, answerWith, if_neg (by simp [hbegin]), ← resolve_eq_respond]
  have htext : pre ++ ("<star>" : Text) ++ post ≠ [] := by simp
  refine ⟨{ q with draws := q.draws.tail }, last, ?_, hbot, hsteps, hmessage, hmatched⟩
  rw [hanswer, respond, if_neg (Nat.not_lt_zero _), run_bind, Bot.run_receive rfl hfound.has]
  dsimp only
  rw [run_openStep, run_bind]
  simp only [beq_self_eq_true, List.length_nil, List.nil_append, hfind]
  rw [run_bind, run_speak hrule.conditions hrule.redirect hrule.replies]
  dsimp only
  rw [if_neg htext, if_neg Bool.false_ne_true]
  exact run_expand_star _ _ hstars hrule.pre_unmarked hrule.post_unmarked hstar hopen hback _

end Answer

theorem Playbook.history_settle (p : Playbook) (q : Profile) : (p.settle q).history = q.history := by
  rw [settle]
  split <;> rfl

namespace Bot

variable {b : Bot} {p : Playbook} {user message pre post star : Text} {found : Match}
  {stars : List Text}

/-- Messages lose angle brackets and backslashes, and where they lose all signs there is no markup. -/
theorem star_admitted
    (hfound : Chooses b ⟨user, p⟩ (b.topicOf user) (p.canon.format false message) found)
    (hstar : star ∈ found.stars) :
    '<' ∉ star ∧ '\\' ∉ star ∧ (p.canon.utf8 = false → Inert star) := by
  have hadmits : ∀ c ∈ star, p.canon.Admits c := by
    intro c hc
    exact Canon.admits_of_mem_format ((hfound.isInfix_star hstar).subset hc)
  have habsent : ∀ c, isMarkupSign c = true → isPlain c = false → c ∉ star := by
    intro c hsign hplain hc
    have hadmit := hadmits c hc
    rw [Canon.Admits, hsign, hplain] at hadmit
    split at hadmit <;> cases hadmit
  refine ⟨habsent _ (by decide) (by decide), habsent _ (by decide) (by decide), fun hascii => ?_⟩
  apply inert_of_isPlain
  intro c hc
  have hadmit := hadmits c hc
  rwa [Canon.Admits, if_neg (by simp [hascii])] at hadmit

/-- A user is settled, then the trigger is remembered, then the exchange. -/
theorem record_receive (b : Bot) (p : Playbook) (user pattern input reply : Text) :
    ((b.receive p user).onRoster (·.setLastMatch user pattern)).onRoster
        (·.record user input reply) =
      b.onRoster (·.alter user fun q =>
        { vars := (p.settle q).vars
          lastMatch := pattern
          history := q.history.record input reply }) := by
  have hroster : ((b.roster.alter user p.settle).setLastMatch user pattern).record user input reply =
      b.roster.alter user fun q =>
        { vars := (p.settle q).vars
          lastMatch := pattern
          history := q.history.record input reply } := by
    rw [Roster.setLastMatch, Roster.alter_alter, Roster.record, Roster.alter_alter]
    congr 1
    funext q
    rw [← p.history_settle q]
    rfl
  exact congrArg (fun r => { b with roster := r }) hroster

/-- The message is answered by a rule that gives back its first star, with nothing before it. -/
structure GivesBack (b : Bot) (p : Playbook) (user message : Text) (found : Match)
    (pre star post : Text) : Prop where
  playbook : b.playbook = some p
  not_begin : p.topics.has Topic.begin = false
  chosen : Chooses (b.receive p user) ⟨user, p⟩ ((b.receive p user).topicOf user)
    (p.canon.format false message) found
  rule : found.rule.Echoes pre post
  star : found.stars.head? = some star

/-- What a user typed is given back as it is. Only the last trigger and the history of that user
change, and the topic if it is not there. Among ASCII characters no markup can be typed; a message that
keeps its curly brackets must not spell out any. -/
theorem typed_text_given_back (h : b.GivesBack p user message found pre star post)
    (hinert : p.canon.utf8 = true → Inert star) (draws : List Nat) :
    ∃ e step, b.reply draws user message =
        { result := .ok e
          bot := b.onRoster (·.alter user fun q =>
            { vars := (p.settle q).vars
              lastMatch := found.rule.pattern
              history := q.history.record e.message e.reply }) } ∧
      e.message = p.canon.format false message ∧ e.reply = pre ++ star ++ post ∧
        e.steps = [step] ∧ step.message = e.message ∧ step.matched = some found.rule.pattern := by
  obtain ⟨stars, hstars⟩ := List.head?_eq_some_iff.mp h.star
  obtain ⟨hopen, hback, hascii⟩ := star_admitted h.chosen (List.mem_of_head? h.star)
  have hstar : Inert star := by
    cases hutf8 : p.canon.utf8 with
    | false => exact hascii hutf8
    | true => exact hinert hutf8
  obtain ⟨q, last, hrun, hbot, hsteps, hmessage, hmatched⟩ :=
    Answer.run_answer_star h.not_begin h.chosen h.rule hstars hstar hopen hback draws
  refine ⟨exchange p message (pre ++ star ++ post) q, last, ?_, rfl, rfl, hsteps, hmessage,
    hmatched⟩
  rw [reply_of_text h.playbook hrun, hbot, record_receive]
  rfl

def parrotBook (utf8 : Bool) : Playbook where
  topics := ⟨[("random", { rules := [{ pattern := "say *", replies := ["You said <star>."] }] })]⟩
  ranked := ⟨[("random", ["say *"])]⟩
  canon := { utf8 }

/-- A bot that gives back what it is told to say. -/
def parrot (utf8 : Bool) : Bot where
  settings := { utf8 }
  playbook := some (parrotBook utf8)

def saying (star : Text) : Match where
  topic := "random"
  rule := { pattern := "say *", replies := ["You said <star>."] }
  viaPrevious := false
  stars := [star]

theorem echoes_saying (star : Text) : (saying star).rule.Echoes "You said " "." :=
  ⟨rfl, rfl, rfl, by decide, by decide⟩

def braced : Text := "\x7bhello\x7d"

/-- Curly brackets may be typed. -/
theorem parrot_gives_back :
    told ((parrot true).reply [] "user" ("Say " ++ braced ++ "!")) =
      some ("You said " ++ braced ++ "." : Text) := by
  have hgives : (parrot true).GivesBack (parrotBook true) "user" ("Say " ++ braced ++ "!")
      (saying braced) "You said " braced "." := by
    refine ⟨rfl, rfl, .trigger (k := 0) (n := 1) ?_ ?_, echoes_saying _, rfl⟩
    · exact ok_of_toOption (by decide +kernel)
    · exact ok_of_toOption (by decide +kernel)
  obtain ⟨e, step, hreply, -, htext, -⟩ :=
    typed_text_given_back hgives (fun _ => by decide +kernel) []
  rw [told, hreply]
  exact congrArg some htext

/-- Enters a topic where it stands in a reply. -/
def entering : Text := "\x7btopic=secret\x7d"

/-- A bot whose user is in a topic that is not there. -/
def lost : Bot := (parrot false).onRoster (·.setVar "user" "topic" (some "nowhere"))

/-- A message that keeps its curly brackets can enter a topic, and a message in a topic that is not
there leaves it. -/
theorem topic_changed_by_message :
    ((parrot true).GivesBack (parrotBook true) "user" ("say " ++ entering) (saying entering)
        "You said " entering "." ∧
      told ((parrot true).reply [] "user" ("say " ++ entering)) = some ("You said ." : Text) ∧
      ((parrot true).reply [] "user" ("say " ++ entering)).bot.roster.var? "user" "topic" =
        some ("secret" : Text)) ∧
    (lost.GivesBack (parrotBook false) "user" "say hello" (saying "hello") "You said " "hello" "." ∧
      told (lost.reply [] "user" "say hello") = some ("You said hello." : Text) ∧
      lost.roster.var? "user" "topic" = some ("nowhere" : Text) ∧
      (lost.reply [] "user" "say hello").bot.roster.var? "user" "topic" =
        some ("random" : Text)) := by
  refine ⟨⟨?_, ?_, ?_⟩, ?_, ?_, ?_, ?_⟩
  · refine ⟨rfl, rfl, .trigger (k := 0) (n := 1) ?_ ?_, echoes_saying _, rfl⟩
    · exact ok_of_toOption (by decide +kernel)
    · exact ok_of_toOption (by decide +kernel)
  · decide +kernel
  · decide +kernel
  · refine ⟨rfl, rfl, .trigger (k := 0) (n := 1) ?_ ?_, echoes_saying _, rfl⟩
    · exact ok_of_toOption (by decide +kernel)
    · exact ok_of_toOption (by decide +kernel)
  · decide +kernel
  · decide +kernel
  · decide +kernel

end Bot

end Dialogue
