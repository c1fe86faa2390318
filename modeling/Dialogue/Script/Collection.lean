import Dialogue.Topic.Walk
import Dialogue.Script.Document

/-! Everything that has been loaded so far. -/
namespace Dialogue

/-- As a value it takes the definition of its name away. -/
def undefineMark : Text := "<undef>"

def Table.define (t : Table Text) (name value : Text) : Table Text :=
  if value = undefineMark then t.erase name else t.set name value

def Table.defineAll (t : Table Text) (definitions : List (Text × Text)) : Table Text :=
  definitions.foldl (fun t d => t.define d.1 d.2) t

structure Script where
  topics : Topics := {}
  arrays : Table (List Text) := {}
  substitutions : Table Text := {}
  person : Table Text := {}
  deriving DecidableEq, Repr

namespace Script

def defineArray (arrays : Table (List Text)) (name : Text) (members : List Text) :
    Table (List Text) :=
  if members = [undefineMark] then arrays.erase name else arrays.set name members

/-- Adds a document: rules come after those already there, later definitions replace earlier
ones. -/
def merge (s : Script) (doc : Document) : Script where
  topics := doc.topics.entries.foldl (fun ts e => ts.alter e.1 {} (·.merge e.2)) s.topics
  arrays := doc.arrays.foldl (fun as e => defineArray as e.1 e.2) s.arrays
  substitutions := s.substitutions.defineAll doc.substitutions
  person := s.person.defineAll doc.person

/-- Names of the topics in their order, the one that precedes every reply last. -/
def topicNames (s : Script) : List Text :=
  let names := s.topics.sortedKeys
  names.filter (· ≠ Topic.begin) ++ names.filter (· = Topic.begin)

end Script

end Dialogue
