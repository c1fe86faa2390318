import Dialogue.Message.Substitution
import Dialogue.Session.History
import Dialogue.Weight

/-! The markup of replies, as far as it can be replaced without changing anything. -/
namespace Dialogue.Markup

open Text

def curly (name : Text) : Text := "\x7b" ++ name ++ "\x7d"

/-! ### Arrays and shortcuts -/

def isArrayNameChar (c : Char) : Bool := c.isAlphanum || c == '_'

def readArray : Reader Text := fun t => do
  let rest ← List.isPrefixOf? ("(@" : Text) t
  match rest.takeWhile isArrayNameChar, rest.dropWhile isArrayNameChar with
  | [], _ => none
  | name, ')' :: after => some (name, after)
  | _, _ => none

/-- One of the members, left to chance; unknown arrays stay as they are written. -/
def memberChoice (arrays : Table (List Text)) (name : Text) : Text :=
  match arrays.find? name with
  | some members => curly "random" ++ ['|'].intercalate members ++ curly "/random"
  | none => "(@" ++ name ++ ")"

def expandArrays (arrays : Table (List Text)) (t : Text) : Text :=
  edit (fun t => (readArray t).map fun (name, rest) => (memberChoice arrays name, rest)) t

def shortcuts : List (Text × Text) :=
  let around (name : Text) : Text × Text :=
    (['<'] ++ name ++ ['>'], curly name ++ "<star>" ++ curly ('/' :: name))
  [around "person", ("<@>", "\x7b@<star>\x7d"), around "formal", around "sentence",
    around "uppercase", around "lowercase"]

def expandShortcuts (t : Text) : Text :=
  shortcuts.foldl (fun t s => replace s.1 s.2 t) t

/-! ### Stars and past messages -/

/-- A star of the message, or of the bot's last reply, with the digits of its number. -/
def readStar : Reader (Bool × Text) := fun t => do
  let ofBot := List.isPrefixOf ("<bot" : Text) t
  let rest ← if ofBot then List.isPrefixOf? ("<botstar" : Text) t
    else List.isPrefixOf? ("<star" : Text) t
  match rest.dropWhile isDigit with
  | '>' :: after => some ((ofBot, rest.takeWhile isDigit), after)
  | _ => none

/-- Stars count from one, which a missing number or zero means too. If nothing was matched by
wildcards, the first star is undefined; other stars that do not exist are empty. -/
def star (stars : List Text) (digits : Text) : Text :=
  let number := max 1 ((Numeral.count? digits).getD 1)
  match stars[number - 1]? with
  | some t => t
  | none => if stars = [] ∧ number = 1 then undefinedText else []

def expandStars (stars botStars : List Text) (t : Text) : Text :=
  edit (fun t => (readStar t).map fun ((ofBot, digits), rest) =>
    (star (if ofBot then botStars else stars) digits, rest)) t

def readPast : Reader (Bool × Nat) := fun t =>
  match List.isPrefixOf? ("<input" : Text) t, List.isPrefixOf? ("<reply" : Text) t with
  | some rest, _ => (number rest).map fun (n, after) => ((true, n), after)
  | _, some rest => (number rest).map fun (n, after) => ((false, n), after)
  | _, _ => none
where
  number : Reader Nat
    | '>' :: after => some (0, after)
    | c :: '>' :: after =>
      if '1' ≤ c ∧ c ≤ '9' then some (c.toNat - '1'.toNat, after) else none
    | _ => none

def expandPast (h : History) (t : Text) : Text :=
  edit (fun t => (readPast t).map fun ((ofUser, n), rest) =>
    (if ofUser then h.input n else h.reply n, rest)) t

/-! ### Escapes and blocks -/

def readEscape : Reader Text
  | '\\' :: 's' :: t => some ([' '], t)
  | '\\' :: 'n' :: t => some (['\n'], t)
  | '\\' :: '#' :: t => some (['#'], t)
  | '\\' :: '\\' :: t => some (['\\'], t)
  | _ => none

def prepare (arrays : Table (List Text)) (stars botStars : List Text) (h : History)
    (user t : Text) : Text :=
  edit readEscape <| replace "<id>" user <| expandPast h <| expandStars stars botStars <|
    Weight.remove <| expandShortcuts <| expandArrays arrays t

/-- What stands between the marks of a block; of all blocks but random choices, at least one
character. -/
def readBlock (name : Text) (least : Nat) : Reader Text :=
  readBetween (curly name) (curly ('/' :: name)) least

/-- The alternatives of a random choice: separated by bars, or by blanks if there is no bar. -/
def options (body : Text) : List Text :=
  if body.contains '|' then pieces (· = '|') body else pieces (· = ' ') body

inductive Block where
  | person
  | formal
  | sentence
  | uppercase
  | lowercase
  deriving DecidableEq, Repr

def Block.name : Block → Text
  | .person => "person"
  | .formal => "formal"
  | .sentence => "sentence"
  | .uppercase => "uppercase"
  | .lowercase => "lowercase"

def Block.all : List Block := [.person, .formal, .sentence, .uppercase, .lowercase]

def Block.format (person : Substitution) : Block → Text → Text
  | .person, t => person.apply (lower t)
  | .formal, t => [' '].intercalate ((pieces (· = ' ') t).map capitalize)
  | .sentence, t => capitalize t
  | .uppercase, t => upper t
  | .lowercase, t => lower t

/-! ### Tags in angle brackets -/

/-- An innermost tag: at least one character, none of them an opening bracket. -/
def readTag : Reader Text
  | '<' :: c :: t =>
    if c = '<' then none
    else match t.dropWhile fun c => c ≠ '<' && c ≠ '>' with
      | '>' :: rest => some (c :: t.takeWhile fun c => c ≠ '<' && c ≠ '>', rest)
      | _ => none
  | _ => none

/-- Unknown tags are kept out of sight until all tags have been carried out. -/
def park (tag : Text) : Text := ['\x00'] ++ tag ++ ['\x01']

def unpark (t : Text) : Text :=
  t.map fun c => if c = '\x00' then '<' else if c = '\x01' then '>' else c

/-- The mark of a call stands in curly brackets while tags are carried out. -/
def hideCalls (t : Text) : Text :=
  replace "</call>" (curly "/__call__") (replace "<call>" (curly "__call__") t)

def showCalls (t : Text) : Text :=
  replace (curly "/__call__") "</call>" (replace (curly "__call__") "<call>" t)

def readTopic : Reader Text := readBetweenOnLine "\x7btopic=" "\x7d" 1

def readRedirect : Reader Text := readBetween "\x7b@" "\x7d" 0

def readHotLoad : Reader Text := readBetween "\x7b!" "\x7d" 1

def readCall : Reader Text := readBetween "<call>" "</call>" 1

def readSet : Reader (Text × Text) := fun t => do
  let rest ← List.isPrefixOf? ("<set " : Text) t
  let (name, rest) ← readBetweenOnLine [] "=" 1 rest
  let (value, rest) ← readBetweenOnLine [] ">" 1 rest
  some ((name, value), rest)

end Dialogue.Markup
