import Dialogue.Reply.Process

/-! Which rule answers, and with which of its responses. -/
namespace Dialogue

open Text

/-- The rule that answers, with what was remembered of the message and of the bot's last
reply. -/
structure Match where
  topic : Text
  rule : Rule
  viaPrevious : Bool
  stars : List Text
  botStars : List Text := []
  deriving DecidableEq, Repr

namespace Selection

def tryPattern (s : Surroundings) (strict : Bool) (pattern message : Text) :
    Except Fault (Option (List Text)) :=
  match Matcher.ofPattern s strict pattern with
  | .ok m => .ok (m.captures message)
  | .error cause => .error (.pattern pattern cause)

/-- The first trigger of a list that matches and has an owner, and how many were tried. -/
def firstTrigger (p : Playbook) (s : Surroundings) (strict : Bool) (topic message : Text) :
    (tried : Nat) → List Text → Except Fault (Option Match × Nat)
  | tried, [] => .ok (none, tried)
  | tried, pattern :: rest => do
    match ← tryPattern s strict pattern message with
    | none => firstTrigger p s strict topic message (tried + 1) rest
    | some stars =>
      match p.topics.owner? p.depth topic pattern with
      | none => firstTrigger p s strict topic message (tried + 1) rest
      | some (owner, position) =>
        match p.topics.rule? owner position with
        | none => firstTrigger p s strict topic message (tried + 1) rest
        | some rule =>
          .ok (some { topic := owner, rule, viaPrevious := false, stars }, tried + 1)

/-- The first of the rules at the given positions whose trigger matches, after the bot's last
reply matched. -/
def firstFollower (s : Surroundings) (strict : Bool) (topic message : Text) (rules : List Rule)
    (botStars : List Text) : (tried : Nat) → List Nat → Except Fault (Option Match × Nat)
  | tried, [] => .ok (none, tried)
  | tried, position :: rest =>
    match rules[position]? with
    | none => firstFollower s strict topic message rules botStars tried rest
    | some rule => do
      match ← tryPattern s strict rule.pattern message with
      | none => firstFollower s strict topic message rules botStars (tried + 1) rest
      | some stars => .ok (some { topic, rule, viaPrevious := true, stars, botStars }, tried + 1)

def firstLookback (p : Playbook) (s : Surroundings) (strict : Bool) (lastReply message : Text) :
    (tried : Nat) → List (Text × Lookback) → Except Fault (Option Match × Nat)
  | tried, [] => .ok (none, tried)
  | tried, (topic, lookback) :: rest => do
    match ← tryPattern s strict lookback.pattern lastReply with
    | none => firstLookback p s strict lastReply message (tried + 1) rest
    | some botStars =>
      let rules := ((p.topics.find? topic).map (·.rules)).getD []
      let positions := lookback.positions
      match ← firstFollower s strict topic message rules botStars (tried + 1) positions with
      | (some found, tried) => .ok (some found, tried)
      | (none, tried) => firstLookback p s strict lastReply message tried rest

def surroundings (b : Bot) (p : Playbook) (user : Text) : Surroundings :=
  let profile := (b.roster.profile? user).getD {}
  { arrays := p.arrays
    botVars := b.vars
    userVars := profile.vars
    history := profile.history
    utf8 := b.settings.utf8
    engine := b.settings.engine }

def matchPrevious (b : Bot) (p : Playbook) (user topic message : Text) :
    Except Fault (Option Match × Nat) :=
  let tree := p.topics.tree p.depth topic
  let s := surroundings b p user
  let lastReply := s.history.reply 0
  if !p.looksBack tree || lastReply = undefinedText then .ok (none, 0)
  else firstLookback p s b.settings.strict (p.canon.format true lastReply) message 0 <|
    tree.flatMap fun name => ((p.lookbacks.find? name).getD []).map fun l => (name, l)

def matchTrigger (b : Bot) (p : Playbook) (user topic message : Text) :
    Except Fault (Option Match × Nat) :=
  firstTrigger p (surroundings b p user) b.settings.strict topic message 0
    ((p.ranked.find? topic).getD [])

end Selection

inductive Response where
  | redirect (target : Text)
  | reply (text : Text)
  deriving DecidableEq, Repr

/-- The responses of a rule with their chances, the redirect first. -/
def Rule.responses (r : Rule) : List (Response × Nat) :=
  (r.redirect.toList.map fun t => (.redirect t, Weight.ofReply t)) ++
    r.replies.map fun t => (.reply t, Weight.ofReply t)

/-- The response that holds a chance, counted from zero. -/
def Response.at? : List (Response × Nat) → Nat → Option Response
  | [], _ => none
  | (response, chances) :: rest, n =>
    if n < chances then some response else at? rest (n - chances)

end Dialogue
