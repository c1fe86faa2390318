import Dialogue.Reply.Expansion
import Dialogue.Reply.Selection
import Dialogue.Condition

/-! Answering a message. -/
namespace Dialogue

open Text Answering Expansion

/-- A reply with the record of how it came about. -/
structure Exchange where
  reply : Text
  message : Text := []
  began : Bool := false
  steps : List Step := []
  tried : Nat := 0
  deriving DecidableEq, Repr

namespace Answer

/-- The topic in which a message is answered. A user in a topic that is not there returns to
the default one. -/
def currentTopic (a : Asking) (begin : Bool) : Answering (Option Text) := do
  if begin then return some Topic.begin
  let topic := ((← bot).roster.var? a.user "topic").getD Topic.default
  if a.playbook.topics.has topic then return some topic
  onRoster (·.setVar a.user "topic" (some Topic.default))
  return if a.playbook.topics.has Topic.default then some Topic.default else none

/-- The response of the first condition that holds. Lines that are no condition are passed
over. -/
def firstCondition (expand : Text → Answering Text) : List Text → Answering (Option Text)
  | [] => return none
  | line :: lines =>
    match Condition.ofText? line with
    | none => firstCondition expand lines
    | some condition => do
      let left ← expand condition.left
      let right ← expand condition.right
      if condition.comparison.holds (Condition.operand left) (Condition.operand right) then
        return some condition.response
      firstCondition expand lines

/-- Draws one of the responses. A rule without responses has an empty reply. -/
def drawResponse (r : Rule) : Answering Response := do
  match r.responses with
  | [] => return .reply []
  | responses =>
    let n ← draw (responses.map Prod.snd)
    return (Response.at? responses n).getD (.reply [])

def tryOut (step : Nat) (result : Except Fault (Option Match × Nat)) :
    Answering (Option Match) := do
  let (found, tried) ← result
  countTried step tried
  return found

def recordMatch (user : Text) (step : Nat) : Option Match → Answering Unit
  | some found => do
    onRoster (·.setLastMatch user found.rule.pattern)
    onStep step fun s =>
      { s with matched := some found.rule.pattern, viaPrevious := found.viaPrevious }
  | none => onRoster (·.setLastMatch user [])

/-- The first part of a step: the rule that answers, after it has been put on record. Rules
that follow on the bot's last reply come first, and only in the user's own message. -/
def findRule (a : Asking) (isFirst : Bool) (step : Nat) (topic message : Text) :
    Answering (Option Match) := do
  let b ← bot
  let following ← (if isFirst then
      tryOut step (Selection.matchPrevious b a.playbook a.user topic message)
    else pure none)
  let found ← (if following.isSome then pure following
    else tryOut step (Selection.matchTrigger b a.playbook a.user topic message))
  recordMatch a.user step found
  return found

def speak (expand redirect : Text → Answering Text) (r : Rule) : Answering Text := do
  match ← firstCondition expand r.conditions with
  | some response => return response
  | none =>
    match ← drawResponse r with
    | .reply text => return text
    | .redirect target =>
      let target ← expand (trim (Weight.remove target))
      redirect (lower target)

/-- Answers a message, or the target of a redirect, at a depth. `call` answers what it redirects
to in turn. -/
def respond (a : Asking) (call : Answerer) : Answerer := fun depth begin message =>
  if a.playbook.depth < depth then setback .tooDeep
  else do
    match ← currentTopic a begin with
    | none => setback .noDefaultTopic
    | some topic =>
      let step ← openStep { depth, topic, message, begin }
      match ← findRule a (depth == 0) step topic message with
      | none => setback .notMatched
      | some found =>
        let turn : Turn :=
          { depth, message, topic, stars := found.stars, botStars := found.botStars }
        let text ← speak (expand a call turn) (call (depth + 1) begin) found.rule
        if text = [] then setback .noReply
        else if begin then expandBegin a.user text
        else expand a call turn text

/-- Answers with as many levels of redirects as are left. -/
def resolveFrom (a : Asking) : (levels : Nat) → Answerer
  | 0 => fun _ _ _ => setback .tooDeep
  | levels + 1 => respond a (resolveFrom a levels)

/-- Answers at a depth. The deepest level is the one at which nothing is answered any more. -/
def resolve (a : Asking) : Answerer := fun depth =>
  resolveFrom a (a.playbook.depth + 2 - depth) depth

def replyMark : Text := "\x7bok\x7d"

/-- Answers a message that has its final form. What is done before the reply decides whether
there is one. -/
def answerWith (a : Asking) (call : Answerer) (message : Text) : Answering Text := do
  if a.playbook.topics.has Topic.begin then
    let before ← call 0 true "request"
    let text ← (if has replyMark before then do
        let reply ← call 0 false message
        return replace replyMark reply before
      else pure before)
    expand a call {} text
  else call 0 false message

def answer (a : Asking) (message : Text) : Answering Text := answerWith a (resolve a) message

end Answer

structure Outcome where
  result : Except Fault Exchange
  bot : Bot

/-- Answers a message of a user. The exchange is remembered if there is a reply. -/
def Bot.reply (b : Bot) (draws : List Nat) (user message : Text) : Outcome :=
  match b.playbook with
  | none =>
    let text := b.settings.wording.notSorted
    let result := if b.settings.throws then .error (.setback .notSorted text)
      else .ok { reply := text }
    { result, bot := b }
  | some playbook =>
    let message := playbook.canon.format false message
    let start : Process := { bot := b.onRoster (·.welcome user), draws }
    match (Answer.answer ⟨user, playbook⟩ message).run.run start with
    | (.error fault, p) => { result := .error fault, bot := p.bot }
    | (.ok reply, p) =>
      let exchange : Exchange :=
        { reply, message, began := playbook.topics.has Topic.begin, steps := p.steps
          tried := p.tried }
      { result := .ok exchange, bot := p.bot.onRoster (·.record user message reply) }

end Dialogue
