import Dialogue.Fault
import Dialogue.Script.Document
import Dialogue.Script.Version

/-! Reading a script line by line. -/
namespace Dialogue

open Text

/-- What has been read, and what the following lines belong to. -/
structure Reading where
  document : Document := {}
  topic : Text := Topic.default
  inComment : Bool := false
  object : Option ObjectSource := none
  /-- The topic and the position of the rule that responses belong to. -/
  rule : Option (Text × Nat) := none
  joiner : Option Joiner := none
  deriving DecidableEq, Repr

namespace Reading

/-- A line of an object, or the end of it. An object without a name is dropped. -/
def objectLine (r : Reading) (o : ObjectSource) (line : Text) : Reading :=
  if has "< object" line || has "<object" line then
    let document := if o.name = [] then r.document
      else { r.document with objects := r.document.objects ++ [o] }
    { r with document, object := none }
  else { r with object := some { o with code := o.code ++ [line] } }

def withoutComment (t : Text) : Text :=
  trim (((cut? " // " t).map Prod.fst).getD t)

/-- Adds to a line the continuations below it, and finds what the rule of a trigger looks back
at. Lines without a command are passed over. -/
def gather (sign : Char) (joiner : Joiner) : List Text → Text → Text × Option Text
  | [], line => (line, none)
  | next :: following, line =>
    match Command.split? (trim next) with
    | none => gather sign joiner following line
    | some (nextSign, rest) =>
      let rest := trim rest
      if nextSign = '^' ∧ rest ≠ [] then
        let separator := if sign = '!' then lineMark else joiner.separator
        gather sign joiner following (line ++ separator ++ rest)
      else if nextSign = '%' ∧ rest ≠ [] then
        if sign = '+' then (line, some rest) else gather sign joiner following line
      else (line, none)

def define (source : Text) (number : Nat) (line : Text) (r : Reading) : Except Fault Reading :=
  let d := Definition.ofLine line
  if d.kind = "version" then
    if Version.isNewer d.value then .error (.version source number d.value) else .ok r
  else if d.name = [] ∨ d.value = [] then .ok r
  else if d.kind = "local" then
    .ok (if d.name = "concat" then { r with joiner := Joiner.ofName? d.value } else r)
  else .ok { r with document := r.document.define d }

/-- Names after the word `includes` or `inherits`, up to the other one, are added to the
topic. -/
def addEdges : (mode : Option Bool) → List Text → Topic → Topic
  | _, [], t => t
  | mode, field :: fields, t =>
    if field = "includes" then addEdges (some true) fields t
    else if field = "inherits" then addEdges (some false) fields t
    else addEdges mode fields <| match mode with
      | some true => t.addInclude field
      | some false => t.addInherit field
      | none => t

def openLabel (foldCase : Bool) (line : Text) (r : Reading) : Reading :=
  let kind := (words line).headD []
  let name := ((words line).drop 1).headD []
  let fields := (words line).drop 2
  if kind = "begin" ∨ kind = "topic" then
    let name := if kind = "begin" then Topic.begin else if foldCase then lower name else name
    { r with
      document := r.document.alterTopic name (addEdges none fields)
      topic := name
      rule := none }
  else if kind = "object" then
    let written := lower (fields.headD [])
    let language : Text := if written = [] then "__unknown__" else written
    { r with object := some { name, language } }
  else r

def closeLabel (line : Text) (r : Reading) : Reading :=
  if line = "begin" ∨ line = "topic" then { r with topic := Topic.default }
  else if line = "object" then { r with object := none }
  else r

def addTrigger (line : Text) (previous : Option Text) (r : Reading) : Reading :=
  let position := ((r.document.topics.find? r.topic).map (·.rules.length)).getD 0
  { r with
    document := r.document.alterTopic r.topic (·.addRule { pattern := line, previous })
    rule := some (r.topic, position) }

def respond (f : Rule → Rule) (r : Reading) : Reading :=
  match r.rule with
  | some (topic, position) =>
    { r with document := r.document.alterTopic topic (·.alterRule position f) }
  | none => r

/-- Carries out a command. Lines that belong to another one have been gathered with it. -/
def command (settings : Settings) (source : Text) (number : Nat) (sign : Char) (line : Text)
    (previous : Option Text) (r : Reading) : Except Fault Reading :=
  match sign with
  | '!' => define source number line r
  | '>' => .ok (openLabel settings.foldCase line r)
  | '<' => .ok (closeLabel line r)
  | '+' => .ok (addTrigger line previous r)
  | '-' => .ok (respond (fun rule => { rule with replies := rule.replies ++ [line] }) r)
  | '*' => .ok (respond (fun rule => { rule with conditions := rule.conditions ++ [line] }) r)
  | '@' => .ok (respond (fun rule => { rule with redirect := some line }) r)
  | _ => .ok r

def commandLine (settings : Settings) (source : Text) (number : Nat) (sign : Char) (rest : Text)
    (following : List Text) (r : Reading) : Except Fault Reading :=
  let line := withoutComment rest
  let line := if settings.foldCase ∧ sign = '+' then lower line else line
  match if settings.strict then Command.check settings sign line else none with
  | some fault => .error (.line source number fault)
  | none =>
    let (line, previous) :=
      if sign = '^' then (line, none)
      else gather sign (r.joiner.getD settings.joiner) following line
    command settings source number sign line previous r

def step (settings : Settings) (source : Text) (number : Nat) (line : Text)
    (following : List Text) (r : Reading) : Except Fault Reading :=
  if line = [] then .ok r
  else match r.object with
    | some o => .ok (objectLine r o line)
    | none =>
      if List.isPrefixOf ("//" : Text) line then .ok r
      else if List.isPrefixOf ("/*" : Text) line then
        .ok { r with inComment := r.inComment || !has "*/" line }
      else if has "*/" line then .ok { r with inComment := false }
      else if r.inComment then .ok r
      else match Command.split? line with
        | some (sign, rest) => commandLine settings source number sign rest following r
        | none => .ok r

def steps (settings : Settings) (source : Text) : Nat → List Text → Reading → Except Fault Reading
  | _, [], r => .ok r
  | number, line :: following, r => do
    steps settings source (number + 1) following
      (← step settings source number (trim line) following r)

end Reading

/-- What a script says. `source` is how faults call it. -/
def Document.ofText (settings : Settings) (source code : Text) : Except Fault Document :=
  (Reading.steps settings source 1 (pieces (· = '\n') code) {}).map (·.document)

end Dialogue
