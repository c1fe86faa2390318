import Dialogue.Text.Numeral

/-! Written expressions with their levels: how deep one part lies in another. The first part
that lies too deep can be shown in its place. -/
namespace Dialogue

open Text

inductive Outline where
  | plain (t : Text)
  | both (a b : Outline)
  /-- One level deeper than what is around it. -/
  | level (inside : Outline)
  deriving DecidableEq, Repr

namespace Outline

instance : Coe String Outline := ⟨fun s => .plain s⟩

instance : Append Outline := ⟨.both⟩

def before : Outline → Text → Text
  | .plain t, rest => t ++ rest
  | .both a b, rest => a.before (b.before rest)
  | .level o, rest => o.before rest

def written (o : Outline) : Text := o.before []

def depth : Outline → Nat
  | .plain _ => 0
  | .both a b => max a.depth b.depth
  | .level o => o.depth + 1

/-- The first part that lies deeper than `limit`, and the text before it. -/
def deeper? : (limit : Nat) → Outline → Option (Text × Text)
  | _, .plain _ => none
  | limit, .both a b =>
    match deeper? limit a with
    | some found => some found
    | none => (deeper? limit b).map fun (earlier, part) => (a.before earlier, part)
  | 0, .level o => some ([], o.written)
  | limit + 1, .level o => deeper? limit o

/-- A line of a text and a column in it, both counted from one. -/
structure Position where
  line : Nat
  column : Nat

def Position.after (t : Text) : Position where
  line := t.count '\n' + 1
  column := (t.reverse.takeWhile (· ≠ '\n')).length + 1

def carets (indent : Nat) (earlier part : Text) : Text :=
  List.replicate (indent + (Position.after earlier).column - 1) ' ' ++
    List.replicate (max 1 part.length) '^' ++ "\n"

/-- Lines with their numbers, and carets under the line `marked`. -/
def numbered (width marked : Nat) (marks : Text) : Nat → List Text → Text
  | _, [] => []
  | n, line :: rest =>
    let number := Numeral.ofNat n
    List.replicate (width - number.length) ' ' ++ number ++ ": " ++
      (if rest ≠ [] ∧ line.getLast? = some '\r' then line.dropLast else line) ++ "\n" ++
      (if n = marked then marks else []) ++ numbered width marked marks (n + 1) rest

/-- A text with a part of it marked by carets. Texts of many lines get numbers, and a part that
spans lines is told by its position. -/
def marked (written earlier part : Text) : Text :=
  match pieces (· = '\n') written with
  | [] | [_] => "    " ++ written ++ "\n" ++ carets 4 earlier part
  | lines =>
    let width := (Numeral.ofNat lines.length).length
    let rule := List.replicate 79 '~' ++ "\n"
    let start := Position.after earlier
    let stop := Position.after (earlier ++ part)
    let place (p : Position) (column : Nat) :=
      "line " ++ Numeral.ofNat p.line ++ " (column " ++ Numeral.ofNat column ++ ")"
    if start.line = stop.line then
      rule ++ numbered width start.line (carets (width + 2) earlier part) 1 lines ++ rule
    else
      rule ++ numbered width 0 [] 1 lines ++ rule ++
        "on " ++ place start start.column ++ " through " ++ place stop (stop.column - 1) ++ "\n"

/-- What an expression stands in. Several parts in a row are a level of their own unless they
stand in a row already, and so are alternatives. -/
inductive Context where
  | inside
  | inRow
  | inAlternatives
  deriving DecidableEq

def Context.rowLevels : Context → Nat
  | .inRow => 0
  | .inside | .inAlternatives => 1

def Context.alternativeLevels : Context → Nat
  | .inAlternatives => 0
  | .inside | .inRow => 1

def deepen : Nat → Outline → Outline
  | 0, o => o
  | n + 1, o => .level (deepen n o)

def depthLimit : Nat := 250

end Outline

end Dialogue
