import Dialogue.Table
import Dialogue.Weight
import Dialogue.Session.History
import Dialogue.Message.Canonical
import Dialogue.Engine.Standard

/-! What a pattern means where it is tried: arrays, variables and past messages take the place
of their names. -/
namespace Dialogue

open Text

structure Surroundings where
  arrays : Table (List Text) := {}
  botVars : Table Text := {}
  userVars : Table Text := {}
  history : History := {}
  utf8 : Bool := false
  engine : Engine := .standard

/-- A value in the form in which messages are compared. -/
def Surroundings.canonical (s : Surroundings) (value : Text) : Text :=
  collapse ((lower value).filter fun c => if s.utf8 then isWordChar c || isSpace c else isPlain c)

/-- Which past message is meant by the rest of a tag; the latest if it has no number. -/
def pastIndex? : Text → Option Nat
  | [] => some 0
  | [c] => if '1' ≤ c ∧ c ≤ '9' then some (c.toNat - '1'.toNat) else none
  | _ => none

/-- What stands in a pattern for a tag. Tags without a meaning stand for themselves. -/
def Surroundings.value (s : Surroundings) (tag : Text) : Text :=
  let tag := trim tag
  let named (kind : Text) := (kind.isPrefixOf? tag).map trim
  let past (kind : Text) := (kind.isPrefixOf? tag).bind pastIndex?
  match named "bot ", named "get ", past "input", past "reply" with
  | some name, _, _, _ => ((s.botVars.find? name).map s.canonical).getD []
  | _, some name, _, _ => ((s.userVars.find? name).map s.canonical).getD undefinedText
  | _, _, some ago, _ => s.canonical (s.history.input ago)
  | _, _, _, some ago => s.canonical (s.history.reply ago)
  | _, _, _, _ => ['<'] ++ tag ++ ['>']

namespace Pattern

/-- A sequence in the making. Its characters stay apart, because blanks at its ends are
dropped. -/
inductive Piece where
  | char (c : Char)
  | part (e : Expression)

def Piece.isBlank : Piece → Bool
  | .char c => c == ' '
  | .part _ => false

def Piece.isSpace : Piece → Bool
  | .char c => Text.isSpace c
  | .part _ => false

def dropBlanks (ps : List Piece) : List Piece := (ps.reverse.dropWhile Piece.isBlank).reverse

def trimPieces (ps : List Piece) : List Piece :=
  ((ps.dropWhile Piece.isSpace).reverse.dropWhile Piece.isSpace).reverse

/-- A blank is written only after something that is no blank. -/
def addSeparator (ps : List Piece) : List Piece :=
  match ps.getLast? with
  | none => ps
  | some p => if p.isBlank then ps else ps ++ [.char ' ']

def join : List Piece → Expression
  | [] => .literal []
  | [.part e] => e
  | .part e :: ps => .seq e (join ps)
  | .char c :: ps =>
    match join ps with
    | .literal t => .literal (c :: t)
    | .seq (.literal t) e => .seq (.literal (c :: t)) e
    | e => .seq (.literal [c]) e

/-- Alternatives without the white space around them; empty ones are dropped. -/
def alternatives (as : List (List Piece)) : List Expression :=
  ((as.map trimPieces).filter fun ps => !ps.isEmpty).map join

/-- One of the alternatives with a gap on both sides, or a gap. -/
def optionalOf (as : List Expression) : Expression :=
  .group false (Expression.eitherOf (as.map (fun e => .seq .gap (.seq e .gap)) ++ [.gap]))

/-- Members of an array in lower case, one of which is meant; nothing for an unknown array. -/
def arrayPieces (s : Surroundings) (name : Text) : List Piece :=
  match s.arrays.find? name with
  | some members =>
    [.part (.group false (Expression.eitherOf (members.map fun m => .literal (lower m))))]
  | none => []

mutual

/-- Adds what an item means. Nothing is remembered inside optional parts. -/
def Item.addTo (s : Surroundings) (remember : Bool) (ps : List Piece) : Item → List Piece
  | .literal c => ps ++ [.char c]
  | .blank => addSeparator ps
  | .wild w => ps ++ [.part (.group remember (.wild w))]
  | .array name => ps ++ arrayPieces s name
  | .tag body => ps ++ (s.value body).map .char
  | .choice as =>
    let choice := Expression.eitherOf (alternatives (piecesOfEach s remember as))
    ps ++ [.part (.group remember choice)]
  | .optional as =>
    dropBlanks ps ++ [.part (optionalOf (alternatives (piecesOfEach s false as)))]

def piecesFrom (s : Surroundings) (remember : Bool) (ps : List Piece) : List Item → List Piece
  | [] => ps
  | i :: is => piecesFrom s remember (Item.addTo s remember ps i) is

def piecesOfEach (s : Surroundings) (remember : Bool) : List (List Item) → List (List Piece)
  | [] => []
  | is :: rest => piecesFrom s remember [] is :: piecesOfEach s remember rest

end

def expression (s : Surroundings) (is : List Item) : Expression := join (piecesFrom s true [] is)

end Pattern

inductive Matcher where
  | exactly (t : Text)
  /-- Any line, an empty one too, remembered as a whole. -/
  | line
  | expression (e : Expression)
  deriving DecidableEq, Repr

namespace Matcher

def captures (m : Matcher) (message : Text) : Option (List Text) :=
  match m with
  | .exactly t => if t = message then some [] else none
  | .line => if message.contains '\n' then none else some [message]
  | .expression e => e.match? message

def ofSigns (s : Surroundings) (body : Text) : Except Refusal Matcher := do
  let items ← (Pattern.items body).mapError .malformed
  let e := Pattern.expression s items
  match s.engine.refusal? e with
  | some l => .error (.limit l)
  | none => .ok (.expression e)

/-- A pattern that cannot be matched is refused if `strict`, and otherwise means its own
text. -/
def ofPattern (s : Surroundings) (strict : Bool) (pattern : Text) : Except Refusal Matcher :=
  let body := Weight.strip pattern
  if Pattern.isVerbatim body then .ok (.exactly (collapse body))
  else if trim pattern = ['*'] then .ok .line
  else match ofSigns s body with
    | .ok m => .ok m
    | .error cause => if strict then .error cause else .ok (.exactly body)

end Matcher

def Pattern.check (pattern : Text) : Except Malformed Unit :=
  (Pattern.items (Weight.strip pattern)).map fun _ => ()

end Dialogue
