import Dialogue.Shell.Console
import Dialogue.Text.Bytes

/-! The program: scripts from files, messages from the standard input. -/
namespace Dialogue

open Shell

/-- A file, or a directory with the script files in it. -/
def readNode (path : String) : IO (Except ReadFailure Node) := do
  let place := (← IO.currentDir) / path
  if path.isEmpty then return .error .absent
  else if ← place.isDir then
    let mut entries : List (Text × Node) := []
    for entry in ← place.readDir do
      let name : Text := entry.fileName.toList
      if Bot.isScriptName name && !(← entry.path.isDir) then
        entries := (name, .file (Text.ofBytes? (← IO.FS.readBinFile entry.path))) :: entries
    return .ok (.directory entries)
  else
    try
      return .ok (.file (Text.ofBytes? (← IO.FS.readBinFile place)))
    catch
      | .inappropriateType .. => return .error .notDirectory
      | .noFileOrDirectory .. => return .error .absent
      | .invalidArgument _ 36 _ => return .error .nameTooLong
      | failure => throw failure

def filesAt (path : Text) : IO Files := do
  let found ← readNode (String.ofList path)
  return {
    find := fun other => do
      match path.isPrefixOf? other with
      | some rest => Node.walk [] (← found) (Path.steps rest)
      | none => .error .absent }

def microseconds (nanoseconds : Nat) : Text :=
  Numeral.ofNat (nanoseconds / 1000) ++ "µs"

def put (t : Text) : IO Unit := do
  (← IO.getStdout).putStr (String.ofList t)
  (← IO.getStdout).flush

def complain (t : Text) : IO Unit := do
  (← IO.getStderr).putStr (String.ofList t)

partial def lineBytes (read : ByteArray) : IO ByteArray := do
  let next ← (← IO.getStdin).read 1
  if next.isEmpty || next.toList = [10] then return read ++ next
  lineBytes (read ++ next)

partial def talk (c : Console) : IO UInt32 := do
  let bytes ← lineBytes .empty
  if bytes.isEmpty then return 0
  match Text.ofBytes? bytes with
  | none =>
    complain ("error: " ++ ReadFailure.notUnicode.message ++ "\n")
    return 1
  | some line =>
    let start ← IO.monoNanosNow
    match c.line line with
    | none => return 0
    | some (shown, c) =>
      let finish ← IO.monoNanosNow
      put (shown.text (microseconds (finish - start)))
      talk c

end Dialogue

open Dialogue Shell

def main (args : List String) : IO UInt32 := do
  let args := args.map String.toList
  match request {} args with
  | .talk o =>
    match prepare o (← filesAt o.path) with
    | .ok b => talk { bot := b, trace := o.trace, color := o.color }
    | .error fault =>
      complain ("error: " ++ fault.message ++ "\n")
      return 1
  | _ =>
    let printout := run [] args {} []
    put printout.out
    complain printout.err
    return printout.exit.toUInt32
