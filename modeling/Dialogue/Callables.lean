import Dialogue.Script.Document

/-! What a reply can call: subroutines of the bot, and objects of the script, which are handed
to whoever handles their language. -/
namespace Dialogue

open Text

abbrev ObjectCall := (name user : Text) → (args : List Text) → Text

abbrev Subroutine := (user : Text) → (args : List Text) → Text

/-- Handlers are told apart by the order of their registration. -/
structure Handler where
  serial : Nat
  call : ObjectCall

structure Delivery where
  serial : Nat
  name : Text
  code : List Text
  deriving DecidableEq, Repr

structure Callables where
  handlers : Table Handler := {}
  subroutines : Table Subroutine := {}
  /-- The language of each object that was handed over. -/
  languages : Table Text := {}
  /-- The latest handler of each language, registered or not any more. -/
  latest : Table Nat := {}
  registered : Nat := 0
  deliveries : List Delivery := []

namespace Callables

def setHandler (c : Callables) (language : Text) (call : ObjectCall) : Callables :=
  { c with
    handlers := c.handlers.set language ⟨c.registered, call⟩
    latest := c.latest.set language c.registered
    registered := c.registered + 1 }

/-- The objects of the language are forgotten with its handler. -/
def removeHandler (c : Callables) (language : Text) : Callables :=
  { c with
    handlers := c.handlers.erase language
    languages := ⟨c.languages.entries.filter fun e => e.2 ≠ language⟩ }

def setSubroutine (c : Callables) (name : Text) (s : Subroutine) : Callables :=
  { c with subroutines := c.subroutines.set name s }

def removeSubroutine (c : Callables) (name : Text) : Callables :=
  { c with subroutines := c.subroutines.erase name }

/-- An object whose language nobody handles is dropped. -/
def deliver (c : Callables) (o : ObjectSource) : Callables :=
  match c.handlers.find? o.language with
  | some h =>
    { c with
      deliveries := c.deliveries ++ [⟨h.serial, o.name, o.code⟩]
      languages := c.languages.set o.name o.language }
  | none => c

def handlerOf? (c : Callables) (name : Text) : Option Handler :=
  (c.languages.find? name).bind c.handlers.find?

/-- Subroutines come before objects of the same name. -/
def call? (c : Callables) (name user : Text) (args : List Text) : Option Text :=
  match c.subroutines.find? name with
  | some s => some (s user args)
  | none => (c.handlerOf? name).map fun h => h.call name user args

def delivered? (c : Callables) (language : Text) : Option (List (Text × List Text)) :=
  (c.latest.find? language).map fun serial =>
    (c.deliveries.filter (·.serial = serial)).map fun d => (d.name, d.code)

end Callables

namespace CallText

def flush (buffer : Text) (args : List Text) : List Text :=
  if buffer = [] then args else buffer :: args

def argsFrom : (quoted : Bool) → (buffer : Text) → Text → List Text
  | _, buffer, [] => flush buffer []
  | quoted, buffer, c :: t =>
    if isSpace c ∧ !quoted then flush buffer (argsFrom quoted [] t)
    else if c = '"' then
      if quoted then flush buffer (argsFrom false [] t) else argsFrom true buffer t
    else argsFrom quoted (buffer ++ [c]) t

/-- Arguments are separated by white space; double quotes keep white space inside them. A
quote inside a bare argument does not end it. -/
def args (t : Text) : List Text := argsFrom false [] t

def split (t : Text) : Text × List Text :=
  let t := trim t
  match cutAt? isSpace t with
  | some (name, rest) => (name, args rest)
  | none => (t, [])

end CallText

end Dialogue
