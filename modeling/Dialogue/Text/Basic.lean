/-! Texts are lists of characters, because every rule of the script language reads the head
of a text and goes on with its rest. A reader recognises something at the head of a text and
returns what it read together with the rest; searching and editing are built on readers. -/
namespace Dialogue

abbrev Text := List Char

instance : Coe String Text := ⟨String.toList⟩

abbrev Reader (α : Type) := Text → Option (α × Text)

namespace Text

/-- Splits at the first occurrence of `mark`, which belongs to neither part. -/
def cut? (mark : Text) : Text → Option (Text × Text)
  | [] => if mark = [] then some ([], []) else none
  | c :: t =>
    match mark.isPrefixOf? (c :: t) with
    | some rest => some ([], rest)
    | none => (cut? mark t).map fun (before, rest) => (c :: before, rest)

/-- Splits at the first character of the class, which belongs to neither part. -/
def cutAt? (sep : Char → Bool) : Text → Option (Text × Text)
  | [] => none
  | c :: t =>
    if sep c then some ([], t) else (cutAt? sep t).map fun (before, rest) => (c :: before, rest)

def has (mark t : Text) : Bool := (cut? mark t).isSome

/-- The parts between separating characters; a text without one is its only part. -/
def pieces (sep : Char → Bool) : Text → List Text
  | [] => [[]]
  | c :: t =>
    if sep c then [] :: pieces sep t
    else match pieces sep t with
      | [] => [[c]]
      | piece :: rest => (c :: piece) :: rest

/-- Where a reader first succeeds: the text before that place, what was read, and the rest. -/
def find? {α : Type} (read : Reader α) : Text → Option (Text × α × Text)
  | [] => none
  | c :: t =>
    match read (c :: t) with
    | some (a, rest) => some ([], a, rest)
    | none => (find? read t).map fun (before, found) => (c :: before, found)

/-- Edits from left to right after passing over `skip` characters. A reader that succeeds
has read at least one character. -/
def editFrom (read : Reader Text) : Nat → Text → Text
  | _, [] => []
  | skip + 1, _ :: t => editFrom read skip t
  | 0, c :: t =>
    match read (c :: t) with
    | some (new, rest) => new ++ editFrom read (t.length - rest.length) t
    | none => c :: editFrom read 0 t

/-- Puts what the reader returns in the place of what it read, wherever it succeeds. What was
put in is not read again. -/
def edit (read : Reader Text) (t : Text) : Text := editFrom read 0 t

def replace (mark new t : Text) : Text :=
  edit (fun t => (mark.isPrefixOf? t).map fun rest => (new, rest)) t

def partsFrom (mark : Text) : Nat → Text → List Text
  | _, [] => [[]]
  | skip + 1, _ :: t => partsFrom mark skip t
  | 0, c :: t =>
    if mark.isPrefixOf (c :: t) then [] :: partsFrom mark (mark.length - 1) t
    else match partsFrom mark 0 t with
      | [] => [[c]]
      | part :: rest => (c :: part) :: rest

def parts (mark t : Text) : List Text := partsFrom mark 0 t

/-- Reads `opening`, then the shortest text of at least `least` characters that `closing`
follows, and `closing`. Returns the text between. -/
def readBetween (opening closing : Text) (least : Nat) : Reader Text := fun t => do
  let rest ← opening.isPrefixOf? t
  let (body, after) ← cut? closing (rest.drop least)
  some (rest.take least ++ body, after)

/-- The same, where what is read lies on one line. -/
def readBetweenOnLine (opening closing : Text) (least : Nat) : Reader Text := fun t => do
  let (body, after) ← readBetween opening closing least t
  if body.contains '\n' then none else some (body, after)

def le (s t : Text) : Bool := (compare s t).isLE

end Text

end Dialogue
