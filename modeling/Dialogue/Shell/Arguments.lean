import Dialogue.Settings
import Dialogue.Text.Numeral
import Dialogue.Shell.Help

/-! The command line. -/
namespace Dialogue.Shell

open Text

structure Options where
  path : Text
  settings : Settings := {}
  trace : Bool := false
  color : Bool := false

inductive UsageFault where
  | depthMissing
  | depthInvalid (value : Text)
  | unknownOption (arg : Text)
  | secondPath
  | noPath
  deriving DecidableEq, Repr

def UsageFault.message : UsageFault → Text
  | .depthMissing => "error: --depth expects a value"
  | .depthInvalid value =>
    "error: invalid --depth '" ++ value ++ "' (expected a positive integer)"
  | .unknownOption arg => "error: unknown option '" ++ arg ++ "'"
  | .secondPath => "error: script path provided multiple times"
  | .noPath => "error: no script path provided\n\n" ++ helpText

inductive Request where
  | help
  | version
  | talk (o : Options)
  | refused (fault : UsageFault)

structure Draft where
  path : Option Text := none
  settings : Settings := {}
  trace : Bool := false
  color : Bool := false

/-- A positive number that fits 64 bits. -/
def depth? (value : Text) : Option Nat := (Numeral.count? value).filter (0 < ·)

def setDepth (d : Draft) (value : Text) : Except UsageFault Draft :=
  match depth? value with
  | some depth => .ok { d with settings := { d.settings with depth } }
  | none => .error (.depthInvalid value)

def depthMark : Text := "--depth="

/-- The value behind the equals sign. The option may stand there more than once. -/
def valueOf (arg : Text) : Text := go arg.length arg
where
  go : Nat → Text → Text
    | 0, arg => arg
    | n + 1, arg =>
      match depthMark.isPrefixOf? arg with
      | some value => go n value
      | none => arg

def flag? (d : Draft) (arg : Text) : Option Draft :=
  if arg = "--color" then some { d with color := true }
  else if arg = "--no-color" then some { d with color := false }
  else if arg = "--utf8" then some { d with settings := { d.settings with utf8 := true } }
  else if arg = "--strict" then some { d with settings := { d.settings with strict := true } }
  else if arg = "--force-case" then
    some { d with settings := { d.settings with foldCase := true } }
  else if arg = "--debug" then some { d with settings := { d.settings with debug := true } }
  else if arg = "--trace" then some { d with trace := true }
  else none

/-- Reads arguments from left to right; the first that is wrong decides. -/
def request : Draft → List Text → Request
  | d, [] =>
    match d.path with
    | some path => .talk { path, settings := d.settings, trace := d.trace, color := d.color }
    | none => .refused .noPath
  | d, arg :: args =>
    if arg = "-h" ∨ arg = "--help" then .help
    else if arg = "-V" ∨ arg = "--version" then .version
    else if arg = "--depth" then
      match args with
      | [] => .refused .depthMissing
      | value :: args =>
        match setDepth d value with
        | .ok d => request d args
        | .error fault => .refused fault
    else match flag? d arg with
      | some d => request d args
      | none =>
        if List.isPrefixOf depthMark arg then
          match setDepth d (valueOf arg) with
          | .ok d => request d args
          | .error fault => .refused fault
        else if arg.head? = some '-' then .refused (.unknownOption arg)
        else if d.path.isSome then .refused .secondPath
        else request { d with path := some arg } args

end Dialogue.Shell
