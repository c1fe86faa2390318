import Dialogue.Settings
import Dialogue.Text.Digit

/-! Script lines: a command sign and what it applies to. The checks here look at one line at a
time, which holds no line break. -/
namespace Dialogue

open Text

inductive SyntaxFault where
  | definitionForm
  | arrayEdge
  | arrayBlank
  | beginArguments
  | topicLetterCase
  | topicCharacters
  | objectCharacters
  | unicodeTrigger
  | triggerCharacters
  | choiceEdge
  | choiceBlank
  | optionalEdge
  | optionalBlank
  | unbalanced (kind : Text)
  | conditionForm
  deriving DecidableEq, Repr

def SyntaxFault.message : SyntaxFault → Text
  | .definitionForm =>
    "Invalid format for !Definition line: must be '! type name = value' OR '! type = value'"
  | .arrayEdge => "Piped arrays can't begin or end with a |"
  | .arrayBlank => "Piped arrays can't include blank entries"
  | .beginArguments => "The 'begin' label takes no additional arguments"
  | .topicLetterCase => "Topics should be lowercased and contain only letters and numbers"
  | .topicCharacters => "Topics should contain only letters and numbers in forceCase mode"
  | .objectCharacters => "Objects can only contain numbers and letters"
  | .unicodeTrigger => "Triggers can't contain uppercase letters or dots in UTF-8 mode"
  | .triggerCharacters =>
    "Triggers may only contain lowercase letters, numbers, and these symbols: " ++
      "( | ) [ ] * _ # @ \x7b \x7d < > = /"
  | .choiceEdge => "Piped alternations can't begin or end with a |"
  | .choiceBlank => "Piped alternations can't include blank entries"
  | .optionalEdge => "Piped optionals can't begin or end with a |"
  | .optionalBlank => "Piped optionals can't include blank entries"
  | .unbalanced kind => "Unmatched " ++ kind ++ " brackets"
  | .conditionForm =>
    "Invalid format for !Condition: should be like '* value symbol value => response'"

namespace Command

/-- The sign and what follows it. A sign alone is no command. -/
def split? : Text → Option (Char × Text)
  | sign :: c :: t => some (sign, c :: t)
  | _ => none

/-! ### Forms of lines -/

def kinds : List Text := ["version", "local", "global", "var", "array", "sub", "person"]

/-- What follows the kind of a definition: perhaps a name after white space, then an equals
sign with a value. -/
def isAssignment (t : Text) : Bool :=
  (match trimStart t with
    | '=' :: _ :: _ => true
    | _ => false) ||
  (match t with
    | c :: _ :: rest => isSpace c && rest.dropLast.contains '='
    | _ => false)

def isDefinition (t : Text) : Bool :=
  kinds.any fun kind => (kind.isPrefixOf? t).any isAssignment

/-- An equals sign and a bar side by side, or with one white space between them. -/
def barAfterEquals : Text → Bool
  | '=' :: '|' :: _ => true
  | '=' :: c :: '|' :: t => isSpace c || barAfterEquals (c :: '|' :: t)
  | _ :: t => barAfterEquals t
  | [] => false

def barAtEnd (t : Text) : Bool :=
  match t.reverse with
  | '|' :: _ => true
  | c :: '|' :: _ => isSpace c
  | _ => false

/-- Two bars side by side between an opening sign and the next closing one. -/
def blankBetween (opening closing : Char) : Text → Bool
  | [] => false
  | c :: t =>
    (c = opening && (cutAt? (· = closing) t).any fun (inner, _) => has "||" inner) ||
      blankBetween opening closing t

def operators : List Text := ["==", "eq", "!=", "ne", "<>", "<", "<=", ">", ">="]

/-- Something, an arrow, and something more. -/
def isGuardEnd : Text → Bool
  | [] => false
  | _ :: t =>
    match cut? "=>" t with
    | some (_, _ :: _) => true
    | _ => false

def hasOperator : Text → Bool
  | [] => false
  | c :: t =>
    (operators.any fun op => (op.isPrefixOf? (c :: t)).any isGuardEnd) || hasOperator t

def isCondition : Text → Bool
  | [] => false
  | _ :: t => hasOperator t

def isNameCharacter (c : Char) : Bool := c.isAlphanum || c == '_' || c == '-' || isSpace c

def isTriggerCharacter (c : Char) : Bool :=
  c.isLower || c.isDigit || "(|)[]*_#@\x7b\x7d<>=/\\".toList.contains c || isSpace c

def isBalanced (opening closing : Char) (t : Text) : Bool := t.count opening == t.count closing

/-! ### Checks -/

def firstFault : List (Bool × SyntaxFault) → Option SyntaxFault
  | [] => none
  | (applies, fault) :: rest => if applies then some fault else firstFault rest

def definitionFaults (t : Text) : List (Bool × SyntaxFault) :=
  let isArray := List.isPrefixOf ("array" : Text) t
  [(!isDefinition t, .definitionForm),
    (isArray && (barAfterEquals t || barAtEnd t), .arrayEdge),
    (isArray && has "||" t, .arrayBlank)]

def labelFaults (foldCase : Bool) (t : Text) : List (Bool × SyntaxFault) :=
  let kind := (words t).headD []
  let isTopic := kind = "topic"
  [(kind = "begin" && (words t).length > 1, .beginArguments),
    (isTopic && !foldCase && t.any (fun c => !isNameCharacter c || c.isUpper), .topicLetterCase),
    (isTopic && t.any (!isNameCharacter ·), .topicCharacters),
    (kind = "object" && t.any (!isNameCharacter ·), .objectCharacters)]

def triggerFaults (utf8 : Bool) (t : Text) : List (Bool × SyntaxFault) :=
  (if utf8 then [(t.any fun c => c.isUpper || c == '.', .unicodeTrigger)]
    else [(t.any (!isTriggerCharacter ·), .triggerCharacters),
      (has "(|" t || has "|)" t, .choiceEdge),
      (blankBetween '(' ')' t, .choiceBlank),
      (has "[|" t || has "|]" t, .optionalEdge),
      (blankBetween '[' ']' t, .optionalBlank)]) ++
  [(!isBalanced '(' ')' t, .unbalanced "parenthesis"),
    (!isBalanced '[' ']' t, .unbalanced "square"),
    (!isBalanced '{' '}' t, .unbalanced "curly"),
    (!isBalanced '<' '>' t, .unbalanced "angle")]

def check (settings : Settings) (sign : Char) (t : Text) : Option SyntaxFault :=
  firstFault <| match sign with
    | '!' => definitionFaults t
    | '>' => labelFaults settings.foldCase t
    | '+' | '%' | '@' => triggerFaults settings.utf8 t
    | '*' => [(!isCondition t, .conditionForm)]
    | _ => []

end Command

end Dialogue
