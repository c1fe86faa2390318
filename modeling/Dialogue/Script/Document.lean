import Dialogue.Topic.Basic
import Dialogue.Text.Space

/-! What a script says, in the order in which it says it. -/
namespace Dialogue

open Text

structure ObjectSource where
  name : Text
  language : Text
  code : List Text := []
  deriving DecidableEq, Repr

structure Document where
  globals : List (Text × Text) := []
  vars : List (Text × Text) := []
  substitutions : List (Text × Text) := []
  person : List (Text × Text) := []
  arrays : List (Text × List Text) := []
  /-- In the order in which they are first mentioned. -/
  topics : Table Topic := {}
  objects : List ObjectSource := []
  deriving DecidableEq, Repr

def lineMark : Text := "<crlf>"

/-- A definition line: its kind, the name and the value. Only arrays keep the marks between
lines. -/
structure Definition where
  kind : Text
  name : Text
  value : Text
  deriving DecidableEq, Repr

namespace Definition

def ofLine (t : Text) : Definition :=
  let (left, value) := match cutAt? (· = '=') t with
    | some (left, value) => (trim left, trim value)
    | none => (trim t, [])
  let (kind, name) := match cutAt? (· = ' ') left with
    | some (kind, name) => (trim kind, trim name)
    | none => (left, [])
  ⟨kind, name, if kind = "array" then value else replace lineMark [] value⟩

/-- Members are separated by bars on a line that has one, else by white space; `\s` in them
is a blank. -/
def members (d : Definition) : List Text :=
  ((parts lineMark d.value).flatMap fun line =>
    if line.contains '|' then pieces (· = '|') line else words line).map (replace "\\s" " ")

end Definition

namespace Document

/-- Adds what is defined; nothing if the kind is not known. -/
def define (doc : Document) (d : Definition) : Document :=
  if d.kind = "global" then { doc with globals := doc.globals ++ [(d.name, d.value)] }
  else if d.kind = "var" then { doc with vars := doc.vars ++ [(d.name, d.value)] }
  else if d.kind = "array" then { doc with arrays := doc.arrays ++ [(d.name, d.members)] }
  else if d.kind = "sub" then
    { doc with substitutions := doc.substitutions ++ [(d.name, d.value)] }
  else if d.kind = "person" then { doc with person := doc.person ++ [(d.name, d.value)] }
  else doc

/-- Changes a topic, which comes into being when it is first mentioned. -/
def alterTopic (doc : Document) (name : Text) (f : Topic → Topic) : Document :=
  { doc with topics := doc.topics.alter name {} f }

end Document

end Dialogue
