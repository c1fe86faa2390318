import Dialogue.Table
import Dialogue.Text.Bytes

/-! Files as a bot meets them: named contents below one directory. -/
namespace Dialogue

open Text

inductive ReadFailure where
  | absent
  | notDirectory
  | isDirectory
  | nameTooLong
  | notUnicode
  deriving DecidableEq, Repr

def ReadFailure.message : ReadFailure → Text
  | .absent => "No such file or directory (os error 2)"
  | .notDirectory => "Not a directory (os error 20)"
  | .isDirectory => "Is a directory (os error 21)"
  | .nameTooLong => "File name too long (os error 36)"
  | .notUnicode => "stream did not contain valid UTF-8"

/-- Contents of a file are a text, or none if its bytes are not one. -/
inductive Node where
  | file (content : Option Text)
  | directory (entries : List (Text × Node))
  deriving Repr

namespace Node

def empty : Node := .directory []

def nameLimit : Nat := 255

/-- Where the parts of a path lead from a node with some directories above it. A file has no
parts below it, not even a dot; what is above the topmost directory is not known. -/
def walk : List Node → Node → List Text → Except ReadFailure Node
  | _, node, [] => .ok node
  | _, .file _, _ :: _ => .error .notDirectory
  | above, .directory entries, part :: parts =>
    if part = "." then walk above (.directory entries) parts
    else if part = ".." then walk (above.drop 1) (above.head?.getD .empty) parts
    else if byteSize part > nameLimit then .error .nameTooLong
    else match entries.lookup part with
      | some node => walk (.directory entries :: above) node parts
      | none => .error .absent

def directoryOf : Node → List (Text × Node)
  | .directory entries => entries
  | .file _ => []

def insert (node : Node) : List Text → List (Text × Node) → List (Text × Node)
  | [], entries => entries
  | [name], entries => ((⟨entries⟩ : Table Node).set name node).entries
  | name :: rest, entries =>
    let inner := insert node rest (directoryOf ((entries.lookup name).getD .empty))
    ((⟨entries⟩ : Table Node).set name (.directory inner)).entries

end Node

namespace Path

/-- Parts of a path. A slash at the end asks for a directory, as a dot there does. -/
def steps (path : Text) : List Text :=
  let asksForDirectory : List Text := if path.getLast? = some '/' then ["."] else []
  (pieces (· = '/') path).filter (· ≠ []) ++ asksForDirectory

def limit : Nat := 4095

def append (path name : Text) : Text :=
  if path.getLast? = some '/' then path ++ name else path ++ "/" ++ name

/-- What follows the last dot of a file name, unless the name begins there. -/
def suffix? (name : Text) : Option Text :=
  match cutAt? (· = '.') name.reverse with
  | some (suffix, _ :: _) => some suffix.reverse
  | _ => none

end Path

def Node.add (root : Node) (path : Text) (node : Node) : Node :=
  .directory (node.insert ((Path.steps path).filter (· ≠ ".")) (Node.directoryOf root))

structure Files where
  find : Text → Except ReadFailure Node := fun _ => .error .absent

namespace Files

/-- Files below a current directory. An empty path leads nowhere, and a path with a slash in
front leads out of it. -/
def below (current : Node) : Files where
  find path :=
    if byteSize path > Path.limit then .error .nameTooLong
    else match path with
      | [] => .error .absent
      | '/' :: _ => Node.walk [] .empty (Path.steps path)
      | _ => Node.walk [] current (Path.steps path)

def isDirectory (fs : Files) (path : Text) : Bool :=
  match fs.find path with
  | .ok (.directory _) => true
  | _ => false

def read (fs : Files) (path : Text) : Except ReadFailure Text :=
  match fs.find path with
  | .error e => .error e
  | .ok (.directory _) => .error .isDirectory
  | .ok (.file none) => .error .notUnicode
  | .ok (.file (some content)) => .ok content

/-- Names of the files in a directory, in the order of their code points. -/
def namesIn (fs : Files) (path : Text) : Except ReadFailure (List Text) :=
  match fs.find path with
  | .error e => .error e
  | .ok (.file _) => .error .notDirectory
  | .ok (.directory entries) =>
    .ok <| (entries.filterMap fun
      | (name, .file _) => some name
      | _ => none).mergeSort Text.le

end Files

end Dialogue
