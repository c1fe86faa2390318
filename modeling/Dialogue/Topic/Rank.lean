import Dialogue.Weight
import Dialogue.Text.Space
import Dialogue.Text.Digit

/-! The order in which triggers are tried. It is decided by a few marks of their text, without
reading the pattern in full. -/
namespace Dialogue

open Text

structure Shape where
  letters : Bool := false
  number : Bool := false
  anything : Bool := false
  optional : Bool := false
  deriving DecidableEq, Repr

inductive Kind where
  | atomic
  | optional
  | letters
  | number
  | anything
  | onlyLetters
  | onlyNumber
  | onlyAnything
  deriving DecidableEq, Repr

def Kind.place : Kind → Nat
  | .atomic => 0
  | .optional => 1
  | .letters => 2
  | .number => 3
  | .anything => 4
  | .onlyLetters => 5
  | .onlyNumber => 6
  | .onlyAnything => 7

/-- A trigger as it stands in a pool, without the mark of its level. -/
structure Entry where
  pattern : Text
  level : Option Nat := none
  weight : Nat := 0
  words : Nat := 0
  shape : Shape := {}
  deriving DecidableEq, Repr

namespace Shape

/-- Adds what is seen from here on; `escaped` after a backslash that is not itself escaped. -/
def scan (s : Shape) : (escaped : Bool) → Text → Shape
  | _, [] => s
  | escaped, '\\' :: t => s.scan (!escaped) t
  | escaped, c :: t =>
    let s := match c with
      | '_' => { s with letters := s.letters || !escaped }
      | '#' => { s with number := true }
      | '*' => { s with anything := true }
      | '[' => { s with optional := true }
      | _ => s
    s.scan false t

end Shape

namespace Entry

def isWordSeparator (c : Char) : Bool := isSpace c || "*#_|".toList.contains c

def countWords (t : Text) : Nat := ((pieces isWordSeparator t).filter (· ≠ [])).length

def readLevel : Reader Text := fun t => do
  let rest ← List.isPrefixOf? ("\x7binherits=" : Text) t
  match rest.takeWhile isDigit, rest.dropWhile isDigit with
  | [], _ => none
  | digits, '}' :: after => some (digits, after)
  | _, _ => none

def ofText (t : Text) : Entry :=
  let (level, pattern) := match readLevel t with
    | some (digits, rest) => (Numeral.count? digits, rest)
    | none => (none, t)
  let bare := Weight.remove pattern
  { pattern, level
    weight := Weight.ofTrigger pattern
    words := countWords bare
    shape := Shape.scan {} false bare }

def kind (e : Entry) : Kind :=
  if e.shape.letters then if e.words = 0 then .onlyLetters else .letters
  else if e.shape.number then if e.words = 0 then .onlyNumber else .number
  else if e.shape.anything then if e.words = 0 then .onlyAnything else .anything
  else if e.shape.optional then .optional
  else .atomic

/-- Entries without a level come last. -/
def compareLevels : Option Nat → Option Nat → Ordering
  | some a, some b => compare a b
  | some _, none => .lt
  | none, some _ => .gt
  | none, none => .eq

/-- Lower levels first, then higher weights, more specific kinds, more words, longer patterns,
and last the order of texts. -/
def order (a b : Entry) : Ordering :=
  (compareLevels a.level b.level).then <|
    (compare b.weight a.weight).then <|
      (compare a.kind.place b.kind.place).then <|
        (compare b.words a.words).then <|
          (compare b.pattern.length a.pattern.length).then <|
            compare a.pattern b.pattern

def ranked (pool : List Text) : List Text :=
  ((pool.map ofText).mergeSort fun a b => (order a b).isLE).map pattern

end Entry

end Dialogue
