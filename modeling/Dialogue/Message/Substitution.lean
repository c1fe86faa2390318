import Dialogue.Table
import Dialogue.Text.Space
import Dialogue.Text.Case
import Dialogue.Text.WordChar
import Dialogue.Text.Numeral

/-! Substitution of whole words and phrases. Every phrase found is first replaced by a
numbered slot, and the slots are filled at the end, so that what one entry puts in is not
changed by another. -/
namespace Dialogue

open Text

structure Substitution where
  /-- Phrases in lower case with what replaces them, in the order in which they are tried. -/
  entries : List (Text × Text) := []
  deriving DecidableEq, Repr

namespace Substitution

/-- More words first, then more characters, then the order of texts. -/
def phraseOrder (a b : Text) : Ordering :=
  (compare (words b).length (words a).length).then <|
    (compare b.length a.length).then (compare a b)

/-- All entries of a table. -/
def ofTable (table : Table Text) : Substitution :=
  ⟨(table.entries.mergeSort fun a b => (phraseOrder a.1 b.1).isLE).map
    fun (phrase, value) => (lower phrase, value)⟩

/-- Entries whose phrase is not taken are passed over. -/
def keep (takes : Text → Bool) (s : Substitution) : Substitution :=
  ⟨s.entries.filter fun (phrase, _) => takes phrase⟩

/-- What follows the phrase at the head of the text, outside words; there is something, or the
text ends. -/
def tail? (phrase t : Text) : Option Text :=
  match phrase.isPrefixOf? t with
  | none => none
  | some [] => some []
  | some (c :: rest) =>
    if isWordChar c then none else some (c :: rest.takeWhile (!isWordChar ·))

/-- Characters outside words, as many as possible and at least one, before the phrase, and
what follows it. -/
def afterLead? (phrase : Text) : Text → Option (Text × Text)
  | [] => none
  | c :: t =>
    if isWordChar c then none
    else match afterLead? phrase t with
      | some (lead, tail) => some (c :: lead, tail)
      | none => (tail? phrase t).map fun tail => ([c], tail)

/-- The characters outside words on both sides of a whole phrase at the head of the text.
Nothing has to stand before it if the text begins here. -/
def whole? (phrase : Text) (atStart : Bool) (t : Text) : Option (Text × Text) :=
  match if atStart then tail? phrase t else none with
  | some tail => some ([], tail)
  | none => afterLead? phrase t

/-- Puts `new` in the place of every whole phrase, after passing over `skip` characters. Where
the characters outside words before a phrase could begin earlier, they have been tried. -/
def placeFrom (phrase new : Text) : (previous : Option Char) → (skip : Nat) → Text → Text
  | previous, _, [] => if previous.isNone ∧ phrase = [] then new else []
  | _, skip + 1, c :: t => placeFrom phrase new (some c) skip t
  | previous, 0, c :: t =>
    match if previous.all isWordChar then whole? phrase previous.isNone (c :: t) else none with
    | some (lead, tail) =>
      let read := lead.length + phrase.length + tail.length
      lead ++ new ++ tail ++ placeFrom phrase new (some c) (read - 1) t
    | none => c :: placeFrom phrase new (some c) 0 t

def place (phrase new t : Text) : Text := placeFrom phrase new none 0 t

def slot (index : Nat) : Text := "\x00PH" ++ Numeral.ofNat index ++ "X\x00"

def readSlot : Reader Text := fun t => do
  let rest ← List.isPrefixOf? ("\x00PH" : Text) t
  let digits := rest.takeWhile isDigit
  if digits = [] then none
  else some (digits, ← List.isPrefixOf? ("X\x00" : Text) (rest.dropWhile isDigit))

/-- What belongs into a slot; nothing for a number that no entry has. -/
def filling (s : Substitution) (digits : Text) : Text :=
  (((Numeral.count? digits).bind (s.entries[·]?)).map Prod.snd).getD []

def fill (s : Substitution) (t : Text) : Text :=
  edit (fun t => (readSlot t).map fun (digits, rest) => (s.filling digits, rest)) t

def placeAll : Nat → List (Text × Text) → Text → Text
  | _, [], t => t
  | index, (phrase, _) :: entries, t => placeAll (index + 1) entries (place phrase (slot index) t)

def apply (s : Substitution) (t : Text) : Text :=
  if s.entries = [] then t else s.fill (placeAll 0 s.entries t)

end Substitution

end Dialogue
