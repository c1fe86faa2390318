import Dialogue.Text.Space
import Dialogue.Text.WordChar

/-! The written form of patterns. A pattern is read without regard to any variable, array or
past message, so whether it is malformed depends on its text alone. -/
namespace Dialogue

open Text

inductive Bracket where
  | round
  | square
  deriving DecidableEq, Repr

def Bracket.closing : Bracket → Char
  | .round => ')'
  | .square => ']'

inductive Malformed where
  | missing (closing : Char)
  | unmatched (closing : Char)
  deriving DecidableEq, Repr

def Malformed.message : Malformed → Text
  | .missing c => "missing '" ++ [c] ++ "'"
  | .unmatched c => "unmatched '" ++ [c] ++ "'"

/-- Wildcards stand for one or more characters: of any kind, digits, or neither digits nor
white space. -/
inductive Wildcard where
  | anything
  | number
  | letters
  deriving DecidableEq, Repr

/-- White space that separates is an item of its own; a character written after a backslash
is always literal. -/
inductive Item where
  | literal (c : Char)
  | blank
  | wild (w : Wildcard)
  | array (name : Text)
  | tag (body : Text)
  | choice (alternatives : List (List Item))
  | optional (alternatives : List (List Item))
  deriving Repr

inductive Token where
  | literal (c : Char)
  | blank
  | wild (w : Wildcard)
  | array (name : Text)
  | tag (body : Text)
  | bar
  | opening (b : Bracket)
  | closing (b : Bracket)
  | openTag
  deriving DecidableEq, Repr

namespace Pattern

def isNameChar (c : Char) : Bool := isAlphanumeric c || c == '_'

/-- Tokens of a pattern after passing over `skip` characters. A tag without an end takes all
that follows. -/
def tokensFrom : Nat → Text → List Token
  | _, [] => []
  | skip + 1, _ :: t => tokensFrom skip t
  | 0, c :: t =>
    match c with
    | '|' => .bar :: tokensFrom 0 t
    | '(' => .opening .round :: tokensFrom 0 t
    | ')' => .closing .round :: tokensFrom 0 t
    | '[' => .opening .square :: tokensFrom 0 t
    | ']' => .closing .square :: tokensFrom 0 t
    | '*' => .wild .anything :: tokensFrom 0 t
    | '#' => .wild .number :: tokensFrom 0 t
    | '_' => .wild .letters :: tokensFrom 0 t
    | '\\' =>
      match t with
      | [] => [.literal '\\']
      | e :: _ => .literal e :: tokensFrom 1 t
    | '@' =>
      match t.takeWhile isNameChar with
      | [] => .literal '@' :: tokensFrom 0 t
      | name => .array name :: tokensFrom name.length t
    | '<' =>
      match cutAt? (· = '>') t with
      | none => [.openTag]
      | some (body, _) => .tag body :: tokensFrom (body.length + 1) t
    | c => (if isSpace c then .blank else .literal c) :: tokensFrom 0 t

/-- A bracket that is open, with the items before it and its finished alternatives. -/
structure Open where
  before : List Item
  bracket : Bracket
  alternatives : List (List Item) := []

def Open.close (o : Open) (last : List Item) : List Item :=
  let alternatives := o.alternatives ++ [last]
  o.before ++ [match o.bracket with
    | .round => .choice alternatives
    | .square => .optional alternatives]

/-- White space after an optional part belongs to it. -/
def addBlank (items : List Item) : List Item :=
  match items.getLast? with
  | some (.optional _) => items
  | _ => items ++ [.blank]

/-- Brackets are open from the innermost outwards, `items` is what the innermost one holds so
far. Outside brackets a bar is an ordinary character. -/
def assemble : List Open → List Item → List Token → Except Malformed (List Item)
  | [], items, [] => .ok items
  | o :: _, _, [] => .error (.missing o.bracket.closing)
  | outer, items, .literal c :: tokens => assemble outer (items ++ [.literal c]) tokens
  | outer, items, .blank :: tokens => assemble outer (addBlank items) tokens
  | outer, items, .wild w :: tokens => assemble outer (items ++ [.wild w]) tokens
  | outer, items, .array name :: tokens => assemble outer (items ++ [.array name]) tokens
  | outer, items, .tag body :: tokens => assemble outer (items ++ [.tag body]) tokens
  | [], items, .bar :: tokens => assemble [] (items ++ [.literal '|']) tokens
  | o :: outer, items, .bar :: tokens =>
    assemble ({ o with alternatives := o.alternatives ++ [items] } :: outer) [] tokens
  | outer, items, .opening b :: tokens =>
    assemble ({ before := items, bracket := b } :: outer) [] tokens
  | [], _, .closing b :: _ => .error (.unmatched b.closing)
  | o :: outer, items, .closing b :: tokens =>
    if o.bracket = b then assemble outer (o.close items) tokens
    else .error (.unmatched b.closing)
  | _, _, .openTag :: _ => .error (.missing '>')

def items (t : Text) : Except Malformed (List Item) := assemble [] [] (tokensFrom 0 t)

/-- Whether a pattern, once its weight is taken away, says the same as its own words. -/
def isVerbatim (t : Text) : Bool := !t.any "*#_([<@\\".toList.contains

end Pattern

end Dialogue
