import Dialogue.Fault
import Dialogue.Message.Canonical
import Dialogue.Pattern.Matcher
import Dialogue.Script.Collection
import Dialogue.Topic.Rank

/-! A script made ready for replies. It does not change until the script is sorted again. -/
namespace Dialogue

/-- A pattern for the bot's last reply with the positions of the rules that look back with
it. -/
structure Lookback where
  pattern : Text
  positions : List Nat
  deriving DecidableEq, Repr

structure Playbook where
  topics : Topics := {}
  /-- Triggers of every topic in the order in which they are tried. -/
  ranked : Table (List Text) := {}
  /-- Topics without a rule that looks back are absent. -/
  lookbacks : Table (List Lookback) := {}
  arrays : Table (List Text) := {}
  canon : Canon := {}
  person : Substitution := {}
  depth : Nat := 50

namespace Lookback

def add (pattern : Text) (position : Nat) : List Lookback → List Lookback
  | [] => [⟨pattern, [position]⟩]
  | l :: rest =>
    if l.pattern = pattern then { l with positions := l.positions ++ [position] } :: rest
    else l :: add pattern position rest

/-- Patterns in the order of their first rules, which stand from `position` on. -/
def indexFrom : (position : Nat) → List Rule → List Lookback → List Lookback
  | _, [], found => found
  | position, r :: rules, found =>
    indexFrom (position + 1) rules <| match r.previous with
      | some pattern => add pattern position found
      | none => found

def index (t : Topic) : List Lookback := indexFrom 0 t.rules []

end Lookback

namespace Playbook

/-- The first malformed pattern of some rules, in their order, what they look back at after
the trigger. -/
def checkRules : List Rule → Except Fault Unit
  | [] => .ok ()
  | r :: rules => do
    checkPattern r.pattern
    match r.previous with
    | some pattern => checkPattern pattern
    | none => .ok ()
    checkRules rules
where
  checkPattern (pattern : Text) : Except Fault Unit :=
    (Pattern.check pattern).mapError fun cause => .pattern pattern (.malformed cause)

def checkPatterns (topics : Topics) : Except Fault Unit :=
  checkRules (topics.sortedKeys.flatMap fun name => ((topics.find? name).map (·.rules)).getD [])

def build (settings : Settings) (depth : Nat) (s : Script) : Playbook where
  topics := s.topics
  ranked := ⟨s.topics.keys.map fun name => (name, Entry.ranked (s.topics.pool depth name))⟩
  lookbacks := ⟨s.topics.entries.filterMap fun (name, topic) =>
    match Lookback.index topic with
    | [] => none
    | found => some (name, found)⟩
  arrays := s.arrays
  canon :=
    { utf8 := settings.utf8
      punctuation := settings.engine.stripper settings.punctuation
      substitution := (Substitution.ofTable s.substitutions).keep settings.engine.takesPhrase }
  person := (Substitution.ofTable s.person).keep settings.engine.takesPhrase
  depth := depth

/-- A strict bot refuses a script with a malformed pattern. -/
def ofScript (settings : Settings) (depth : Nat) (s : Script) : Except Fault Playbook := do
  if settings.strict then checkPatterns s.topics
  .ok (build settings depth s)

def looksBack (p : Playbook) (names : List Text) : Bool := names.any p.lookbacks.has

end Playbook

end Dialogue
