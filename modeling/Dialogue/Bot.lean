import Dialogue.Playbook
import Dialogue.Callables
import Dialogue.Script.Reading
import Dialogue.Session.Roster

/-! A bot: what it was told, what it made of it at the last sorting, and what it knows about
its users. Replies come from the playbook; what is loaded later waits for the next sorting. -/
namespace Dialogue

structure Bot where
  settings : Settings := {}
  script : Script := {}
  playbook : Option Playbook := none
  vars : Table Text := {}
  globals : Table Text := {}
  roster : Roster := {}
  callables : Callables := {}

namespace Bot

/-! ### Loading -/

def absorb (b : Bot) (doc : Document) : Bot :=
  { b with
    script := b.script.merge doc
    vars := b.vars.defineAll doc.vars
    globals := b.globals.defineAll doc.globals
    callables := doc.objects.foldl Callables.deliver b.callables }

/-- Loads a script; a script with a fault changes nothing. -/
def load (b : Bot) (source code : Text) : Except Fault Bot :=
  (Document.ofText b.settings source code).map b.absorb

def stream (b : Bot) (code : Text) : Except Fault Bot := b.load "stream()" code

def loadFile (b : Bot) (fs : Files) (path : Text) : Except Fault Bot :=
  match fs.read path with
  | .error cause => .error (.unreadable path cause)
  | .ok code => b.load path code

/-- Loads files one after the other. Those before a fault stay loaded. -/
def loadFiles (fs : Files) : List Text → Bot → Except Fault Unit × Bot
  | [], b => (.ok (), b)
  | path :: paths, b =>
    match b.loadFile fs path with
    | .error fault => (.error fault, b)
    | .ok b => loadFiles fs paths b

def scriptSuffixes : List Text := ["rive", "rs"]

def isScriptName (name : Text) : Bool := (Path.suffix? name).any scriptSuffixes.contains

/-- Loads the script files of a directory and returns how many there are. -/
def loadDirectory (b : Bot) (fs : Files) (path : Text) : Except Fault Nat × Bot :=
  match fs.namesIn path with
  | .error cause => (.error (.unreadable path cause), b)
  | .ok names =>
    let scripts := names.filter isScriptName
    let (result, b) := loadFiles fs (scripts.map (Path.append path)) b
    (result.map fun _ => scripts.length, b)

/-- How deep replies and walks may go: the global `depth` if it is a number. -/
def depth (b : Bot) : Nat :=
  ((b.globals.find? "depth").bind fun t => Numeral.count? (Text.trim t)).getD b.settings.depth

/-- Makes what has been loaded ready for replies; a fault leaves the former playbook. -/
def sort (b : Bot) : Except Fault Bot :=
  (Playbook.ofScript b.settings b.depth b.script).map fun p => { b with playbook := some p }

def hotLoad (b : Bot) (code : Text) : Except Fault Unit × Bot :=
  match b.stream code with
  | .error fault => (.error fault, b)
  | .ok loaded =>
    match loaded.sort with
    | .error fault => (.error fault, loaded)
    | .ok sorted => (.ok (), sorted)

/-! ### Definitions -/

def setVar (b : Bot) (name : Text) (value : Option Text) : Bot :=
  { b with vars := b.vars.put name value }

def setGlobal (b : Bot) (name : Text) (value : Option Text) : Bot :=
  { b with globals := b.globals.put name value }

/-- Counts from the next sorting on. -/
def setSubstitution (b : Bot) (name : Text) (value : Option Text) : Bot :=
  { b with script := { b.script with substitutions := b.script.substitutions.put name value } }

/-- Counts from the next sorting on. -/
def setPerson (b : Bot) (name : Text) (value : Option Text) : Bot :=
  { b with script := { b.script with person := b.script.person.put name value } }

def ranked? (b : Bot) (topic : Text) : Option (List Text) :=
  b.playbook.bind (·.ranked.find? topic)

/-! ### Users and calls -/

def onRoster (b : Bot) (f : Roster → Roster) : Bot := { b with roster := f b.roster }

def onCallables (b : Bot) (f : Callables → Callables) : Bot := { b with callables := f b.callables }

end Bot

end Dialogue
