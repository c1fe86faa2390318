import Dialogue.Text.Space
import Dialogue.Text.WordChar

/-! Classes of characters as they are written in regular expressions: characters, ranges and
named classes in square brackets, which can be nested, negated and combined. -/
namespace Dialogue

open Text

inductive CharClass where
  | ranges (rs : List (Char × Char))
  | digit
  | word
  | space
  | complement (a : CharClass)
  | union (a b : CharClass)
  | both (a b : CharClass)
  | without (a b : CharClass)
  | differ (a b : CharClass)
  | bracket (negated : Bool) (a : CharClass)
  deriving DecidableEq, Repr

namespace CharClass

def admits : CharClass → Char → Bool
  | .ranges rs, c => rs.any fun (first, last) => first ≤ c && c ≤ last
  | .digit, c => isDigit c
  | .word, c => isWordChar c
  | .space, c => isSpace c
  | .complement a, c => !a.admits c
  | .union a b, c => a.admits c || b.admits c
  | .both a b, c => a.admits c && b.admits c
  | .without a b, c => a.admits c && !b.admits c
  | .differ a b, c => a.admits c != b.admits c
  | .bracket negated a, c => a.admits c != negated

/-- How deep brackets, unions and combinations lie in each other. A union of many members is
one level. -/
def depth (inUnion : Bool) : CharClass → Nat
  | .ranges _ | .digit | .word | .space | .complement _ => 0
  | .union a b => (if inUnion then 0 else 1) + max (a.depth true) (b.depth true)
  | .both a b | .without a b | .differ a b => 1 + max (a.depth false) (b.depth false)
  | .bracket _ a => 1 + a.depth false

def single (c : Char) : CharClass := .ranges [(c, c)]

def unionOf : List CharClass → CharClass
  | [] => .ranges []
  | [k] => k
  | k :: ks => .union k (unionOf ks)

theorem admits_single (c d : Char) : (single d).admits c = (c == d) := by
  rw [Bool.eq_iff_iff]
  simp only [single, admits, List.any_cons, List.any_nil, Bool.or_false, Bool.and_eq_true,
    decide_eq_true_eq, beq_iff_eq]
  exact ⟨fun h => Char.le_antisymm h.2 h.1, fun h => h ▸ ⟨Char.le_refl c, Char.le_refl c⟩⟩

theorem admits_unionOf (t : Text) (c : Char) : (unionOf (t.map single)).admits c = t.contains c := by
  induction t with
  | nil => rfl
  | cons d t ih =>
    cases t with
    | nil =>
      show (single d).admits c = _
      rw [admits_single, List.contains_cons]
      exact (Bool.or_false _).symm
    | cons e t =>
      show ((single d).admits c || (unionOf ((e :: t).map single)).admits c) = _
      rw [ih, admits_single, List.contains_cons (l := e :: t)]

def named? (name : Text) : Option CharClass :=
  match String.ofList name with
  | "alnum" => some (.ranges [('0', '9'), ('A', 'Z'), ('a', 'z')])
  | "alpha" => some (.ranges [('A', 'Z'), ('a', 'z')])
  | "ascii" => some (.ranges [('\x00', '\x7f')])
  | "blank" => some (.ranges [('\t', '\t'), (' ', ' ')])
  | "cntrl" => some (.ranges [('\x00', '\x1f'), ('\x7f', '\x7f')])
  | "digit" => some (.ranges [('0', '9')])
  | "graph" => some (.ranges [('!', '~')])
  | "lower" => some (.ranges [('a', 'z')])
  | "print" => some (.ranges [(' ', '~')])
  | "punct" => some (.ranges [('!', '/'), (':', '@'), ('[', '\x60'), ('\x7b', '~')])
  | "space" => some (.ranges [('\t', '\r'), (' ', ' ')])
  | "upper" => some (.ranges [('A', 'Z')])
  | "word" => some (.ranges [('0', '9'), ('A', 'Z'), ('_', '_'), ('a', 'z')])
  | "xdigit" => some (.ranges [('0', '9'), ('A', 'F'), ('a', 'f')])
  | _ => none

end CharClass

inductive Edge where
  | textStart
  | textStop
  | word
  | notWord
  | wordStart
  | wordStop
  deriving DecidableEq, Repr

def Edge.holds (e : Edge) (previous next : Option Char) : Bool :=
  match e with
  | .textStart => previous.isNone
  | .textStop => next.isNone
  | .word => isBoundary previous next
  | .notWord => !isBoundary previous next
  | .wordStart => !previous.any isWordChar && next.any isWordChar
  | .wordStop => previous.any isWordChar && !next.any isWordChar

inductive Escape where
  | char (c : Char)
  | anyOf (k : CharClass)
  | edge (e : Edge)
  deriving DecidableEq, Repr

namespace Escape

def hexDigit? (c : Char) : Option Nat :=
  if c.isDigit then some (c.toNat - '0'.toNat)
  else if 'a' ≤ c ∧ c ≤ 'f' then some (c.toNat - 'a'.toNat + 10)
  else if 'A' ≤ c ∧ c ≤ 'F' then some (c.toNat - 'A'.toNat + 10)
  else none

def hexFrom? (value : Nat) : Text → Option Nat
  | [] => some value
  | c :: t => (hexDigit? c).bind fun digit => hexFrom? (16 * value + digit) t

def hexChar? (t : Text) : Option Escape :=
  if t = [] then none
  else (hexFrom? 0 t).bind fun n =>
    if n.isValidChar then some (.char (Char.ofNat n)) else none

/-- A number in curly brackets or of `digits` digits. -/
def readHex (digits : Nat) : Reader Escape
  | [] => none
  | c :: t =>
    if c = Char.ofNat 0x7B then do
      let (number, rest) ← cutAt? (· = Char.ofNat 0x7D) t
      some (← hexChar? number, rest)
    else
      let number := (c :: t).take digits
      if number.length < digits then none
      else (hexChar? number).map fun e => (e, (c :: t).drop digits)

/-- Signs stand for themselves, and letters mean something else. -/
def ofChar? : Char → Option Escape
  | 'd' => some (.anyOf .digit)
  | 'w' => some (.anyOf .word)
  | 's' => some (.anyOf .space)
  | 'D' => some (.anyOf (.complement .digit))
  | 'W' => some (.anyOf (.complement .word))
  | 'S' => some (.anyOf (.complement .space))
  | 'n' => some (.char '\n')
  | 't' => some (.char '\t')
  | 'r' => some (.char '\r')
  | 'f' => some (.char '\x0c')
  | 'v' => some (.char '\x0b')
  | 'a' => some (.char '\x07')
  | 'A' => some (.edge .textStart)
  | 'z' => some (.edge .textStop)
  | 'b' => some (.edge .word)
  | 'B' => some (.edge .notWord)
  | '<' => some (.edge .wordStart)
  | '>' => some (.edge .wordStop)
  | c => if c.toNat < 0x80 && !c.isAlphanum then some (.char c) else none

def read : Reader Escape
  | [] => none
  | 'x' :: t => readHex 2 t
  | 'u' :: t => readHex 4 t
  | 'U' :: t => readHex 8 t
  | c :: t => (ofChar? c).map fun e => (e, t)

end Escape

namespace CharClass

/-- A character of a class in brackets, or what a backslash stands for there. -/
def readItem : Reader Escape
  | [] => none
  | '\\' :: t => Escape.read t
  | c :: t => some (.char c, t)

/-- A range of characters, or a single item. A hyphen before another one or before the closing
bracket begins no range. -/
def readMember : Reader CharClass := fun t => do
  let (first, rest) ← readItem t
  let alone := match first with
    | .char c => some (single c, rest)
    | .anyOf k => some (k, rest)
    | .edge _ => none
  match rest with
  | '-' :: next =>
    if next.head? = some ']' ∨ next.head? = some '-' then alone
    else do
      let (last, rest) ← readItem next
      match first, last with
      | .char a, .char b => if a ≤ b then some (.ranges [(a, b)], rest) else none
      | _, _ => none
  | _ => alone

/-- Reads a named class after its first bracket, such as `:alpha:]` and `:^alpha:]`. -/
def readNamed : Reader CharClass
  | ':' :: t => do
    let (negated, t) := match t with
      | '^' :: t => (true, t)
      | _ => (false, t)
    match ← cutAt? (· = ':') t with
    | (name, ']' :: rest) =>
      (named? name).map fun k => (if negated then .complement k else k, rest)
    | _ => none
  | _ => none

inductive Combination where
  | both
  | without
  | differ
  deriving DecidableEq, Repr

/-- A bracket that is open: what stands before the last sign of combination, with that sign,
and the members after it. -/
structure OpenClass where
  negated : Bool := false
  before : Option (CharClass × Combination) := none
  members : List CharClass := []

namespace OpenClass

def add (o : OpenClass) (k : CharClass) : OpenClass := { o with members := o.members ++ [k] }

def value (o : OpenClass) : CharClass :=
  let k := unionOf o.members
  match o.before with
  | none => k
  | some (earlier, .both) => .both earlier k
  | some (earlier, .without) => .without earlier k
  | some (earlier, .differ) => .differ earlier k

def combine (o : OpenClass) (sign : Combination) : OpenClass :=
  { negated := o.negated, before := some (o.value, sign) }

def close (o : OpenClass) : CharClass := .bracket o.negated o.value

/-- Begins a class after its opening bracket. Hyphens that come first are members, and so is a
closing bracket that comes first. -/
def start (t : Text) : OpenClass × Text :=
  let (negated, t) := match t with
    | '^' :: t => (true, t)
    | _ => (false, t)
  match t with
  | ']' :: t => ({ negated, members := [single ']'] }, t)
  | '-' :: _ =>
    ({ negated, members := (t.takeWhile (· = '-')).map single }, t.dropWhile (· = '-'))
  | t => ({ negated }, t)

end OpenClass

/-- Signs of combination are doubled. -/
def combination? (c : Char) (t : Text) : Option Combination :=
  if t.head? ≠ some c then none
  else match c with
    | '&' => some .both
    | '-' => some .without
    | '~' => some .differ
    | _ => none

/-- Reads the rest of a class after passing over `skip` characters. Brackets are open from the
innermost outwards. -/
def readFrom : (skip : Nat) → (outer : List OpenClass) → OpenClass → Reader CharClass
  | _, _, _, [] => none
  | skip + 1, outer, o, _ :: t => readFrom skip outer o t
  | 0, outer, o, c :: t =>
    if c = '[' then
      match readNamed t with
      | some (k, rest) => readFrom (t.length - rest.length) outer (o.add k) t
      | none =>
        let (inner, rest) := OpenClass.start t
        readFrom (t.length - rest.length) (o :: outer) inner t
    else if c = ']' then
      match outer with
      | [] => some (o.close, t)
      | p :: outer => readFrom 0 outer (p.add o.close) t
    else match combination? c t with
      | some sign => readFrom 1 outer (o.combine sign) t
      | none =>
        match readMember (c :: t) with
        | some (k, rest) => readFrom (t.length - rest.length) outer (o.add k) t
        | none => none

def read : Reader CharClass := fun t =>
  let (o, rest) := OpenClass.start t
  readFrom 0 [] o rest

end CharClass

end Dialogue
