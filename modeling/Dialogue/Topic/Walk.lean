import Dialogue.Topic.Basic
import Dialogue.Text.Numeral

/-! Walks along the edges between topics. Nothing is remembered about topics already seen: a
walk ends where it has taken as many edges as allowed, so cycles are harmless. -/
namespace Dialogue

abbrev Topics := Table Topic

namespace Topics

/-- The mark of a rule that is reached over `level` edges of inheritance. -/
def levelMark (level : Nat) : Text := "\x7binherits=" ++ Numeral.ofNat level ++ "\x7d"

/-- Triggers found on walks that may still visit `steps` topics. They are marked with their
level once a topic on the walk inherits. -/
def poolFrom (topics : Topics) : (steps : Nat) → (name : Text) → (level : Nat) →
    (marked : Bool) → List Text
  | 0, _, _, _ => []
  | steps + 1, name, level, marked =>
    match topics.find? name with
    | none => []
    | some topic =>
      let marked := marked || !topic.inherits.isEmpty
      topic.includes.flatMap (fun n => poolFrom topics steps n level marked) ++
        topic.inherits.flatMap (fun n => poolFrom topics steps n (level + 1) true) ++
        (topic.rules.filter (·.previous.isNone)).map fun r =>
          if marked then levelMark level ++ r.pattern else r.pattern

def pool (topics : Topics) (limit : Nat) (name : Text) : List Text :=
  poolFrom topics (limit + 1) name 0 false

def treeFrom (topics : Topics) : (steps : Nat) → (name : Text) → List Text
  | 0, _ => []
  | steps + 1, name =>
    match topics.find? name with
    | none => []
    | some topic => name :: (topic.includes ++ topic.inherits).flatMap (treeFrom topics steps)

/-- The topic itself and, before its inherited ones, its included ones, with theirs. -/
def tree (topics : Topics) (limit : Nat) (name : Text) : List Text :=
  treeFrom topics (limit + 1) name

def relatedOwner? (topics : Topics) (pattern : Text) : (steps : Nat) → (name : Text) →
    Option (Text × Nat)
  | 0, _ => none
  | steps + 1, name =>
    match topics.find? name with
    | none => none
    | some topic => (topic.inherits ++ topic.includes).findSome? fun related =>
      match topics.find? related with
      | none => none
      | some other =>
        match other.owns? pattern with
        | some index => some (related, index)
        | none => relatedOwner? topics pattern steps related

/-- The rule that answers for a pattern in a topic: the topic's own, else that of an inherited
topic, else that of an included one. Returns where it stands. -/
def owner? (topics : Topics) (limit : Nat) (name pattern : Text) : Option (Text × Nat) :=
  match topics.find? name with
  | none => none
  | some topic =>
    match topic.owns? pattern with
    | some index => some (name, index)
    | none => relatedOwner? topics pattern (limit + 1) name

def rule? (topics : Topics) (name : Text) (index : Nat) : Option Rule :=
  (topics.find? name).bind (·.rules[index]?)

end Topics

end Dialogue
