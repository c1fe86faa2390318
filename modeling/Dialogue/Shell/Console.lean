import Dialogue.Shell.Arguments
import Dialogue.Shell.Report

/-! A conversation on the console. -/
namespace Dialogue.Shell

open Text

structure Console where
  bot : Bot
  trace : Bool
  color : Bool

def user : Text := "localuser"

inductive Shown where
  | lines (ls : List Text)
  | exchange (color : Bool) (line : Text) (e : Exchange)

def Shown.text (time : Text) : Shown → Text
  | .lines ls => ls.flatMap (· ++ ['\n'])
  | .exchange color line e => report ⟨color⟩ time line e

def padLeft (width : Nat) (t : Text) : Text := List.replicate (width - t.length) ' ' ++ t

def padRight (width : Nat) (t : Text) : Text := t ++ List.replicate (width - t.length) ' '

def kindName : Kind → Text
  | .atomic => "Atomic"
  | .optional => "Optional"
  | .letters => "Alpha"
  | .number => "Number"
  | .anything => "Wild"
  | .onlyLetters => "LoneAlpha"
  | .onlyNumber => "LoneNumber"
  | .onlyAnything => "LoneWild"

def entryLine (position : Nat) (pattern : Text) : Text :=
  let e := Entry.ofText pattern
  let level := match e.level with
    | some level => " inherits=" ++ Numeral.ofNat level
    | none => []
  padLeft 4 (Numeral.ofNat position) ++ "  " ++ padRight 10 (kindName e.kind) ++ " " ++ e.pattern ++
    level

def rankedLines (b : Bot) (topic : Text) : List Text :=
  match b.ranked? topic with
  | some patterns => patterns.zipIdx.map fun (pattern, position) => entryLine position pattern
  | none => ["No topic named '" ++ topic ++ "'. Topics: " ++
      (", ".toList).intercalate b.script.topicNames]

def variableLines (b : Bot) : List Text :=
  match b.roster.profile? user with
  | some profile =>
    profile.vars.sortedKeys.map (fun name =>
      "  " ++ name ++ " = " ++ (profile.vars.find? name).getD []) ++
    ["  (last match: '" ++ profile.lastMatch ++ "')"]
  | none => ["No variables yet."]

namespace Console

def answer (c : Console) (line : Text) : Shown × Console :=
  let outcome := c.bot.reply [] user line
  let shown := match outcome.result with
    | .ok e => if c.trace then .exchange c.color line e else .lines ["Bot> " ++ e.reply]
    | .error fault => .lines ["Bot> error: " ++ fault.message]
  (shown, { c with bot := outcome.bot })

/-- What a line leads to, and how it goes on; nothing goes on after the command to quit. -/
def line (c : Console) (t : Text) : Option (Shown × Console) :=
  let t := trim t
  let (command, rest) := match cutAt? (· = ' ') t with
    | some (command, rest) => (command, trim rest)
    | none => (t, [])
  if t = [] then some (.lines [], c)
  else if command = "/quit" then none
  else if command = "/help" then some (.lines [commandsText], c)
  else if command = "/trace" then
    let word := if c.trace then "off" else "on"
    some (.lines ["Trace " ++ word ++ "."], { c with trace := !c.trace })
  else if command = "/sorted" then
    some (.lines (rankedLines c.bot (if rest = [] then Topic.default else rest)), c)
  else if command = "/vars" then some (.lines (variableLines c.bot), c)
  else some (c.answer t)

end Console

structure Printout where
  out : Text := []
  err : Text := []
  exit : Nat := 0
  deriving DecidableEq, Repr

/-- A conversation over the lines of the input. A line that is no text ends it. -/
def converse (time : Text) : List (Option Text) → Console → Printout
  | [], _ => {}
  | none :: _, _ => { err := "error: " ++ ReadFailure.notUnicode.message ++ "\n", exit := 1 }
  | some line :: lines, c =>
    match c.line line with
    | none => {}
    | some (shown, c) =>
      let later := converse time lines c
      { later with out := shown.text time ++ later.out }

def prepare (o : Options) (fs : Files) : Except Fault Bot := do
  let b : Bot := { settings := o.settings }
  let b ← if fs.isDirectory o.path then
      match b.loadDirectory fs o.path with
      | (.ok _, b) => .ok b
      | (.error fault, _) => .error fault
    else b.loadFile fs o.path
  b.sort

def run (time : Text) (args : List Text) (fs : Files) (input : List (Option Text)) : Printout :=
  match request {} args with
  | .help => { out := helpText ++ "\n" }
  | .version => { out := versionText ++ "\n" }
  | .refused fault => { err := fault.message ++ "\n", exit := 2 }
  | .talk o =>
    match prepare o fs with
    | .error fault => { err := "error: " ++ fault.message ++ "\n", exit := 1 }
    | .ok b => converse time input { bot := b, trace := o.trace, color := o.color }

end Dialogue.Shell
