import Dialogue.Engine.CharClass
import Dialogue.Text.Outline

/-! Small regular expressions: classes of characters, edges, groups, alternatives and repeated
parts, not too deep in each other. Named groups, flags and the properties of characters that have
names are not read. -/
namespace Dialogue

open Text

inductive Regex where
  | empty
  | one (k : CharClass)
  | edge (e : Edge)
  | seq (a b : Regex)
  | either (a b : Regex)
  /-- At least `least` times and at most `most` times, if there is a most. More often is
  preferred if `eager`. -/
  | rounds (eager : Bool) (least : Nat) (most : Option Nat) (a : Regex)
  | group (a : Regex)
  deriving DecidableEq, Repr

namespace Regex

def depth (p : Outline.Context) : Regex → Nat
  | .empty | .edge _ => 0
  | .one k => k.depth false
  | .seq a b => p.rowLevels + max (a.depth .inRow) (b.depth .inRow)
  | .either a b =>
    p.alternativeLevels + max (a.depth .inAlternatives) (b.depth .inAlternatives)
  | .rounds _ _ _ a => 1 + a.depth .inRow
  | .group a => 1 + a.depth .inside

def seqOf : List Regex → Regex
  | [] => .empty
  | [r] => r
  | r :: rs => .seq r (seqOf rs)

def eitherOf : List Regex → Regex
  | [] => .empty
  | [r] => r
  | r :: rs => .either r (eitherOf rs)

/-- A place of a text: the character before it, and what is left with its length. -/
structure Place where
  previous : Option Char
  rest : Text
  left : Nat

def Place.start (t : Text) : Place := { previous := none, rest := t, left := t.length }

/-- Where a preferred match ends, as the match of the whole goes on with `next`. -/
abbrev Search := Place → (Place → Option Place) → Option Place

def searchTimes (body : Search) : Nat → Search
  | 0, p, next => next p
  | n + 1, p, next => body p fun q => searchTimes body n q next

def searchUpTo (eager : Bool) (body : Search) : Nat → Search
  | 0, p, next => next p
  | n + 1, p, next =>
    if eager then (body p fun q => searchUpTo eager body n q next) <|> next p
    else next p <|> body p fun q => searchUpTo eager body n q next

/-- One round and then more of them, at most `bound`. A round that reads nothing is the last. -/
def searchMore (eager : Bool) (body : Search) : (bound : Nat) → Search
  | 0, _, _ => none
  | bound + 1, p, next => body p fun q =>
    if q.left < p.left then
      if eager then searchMore eager body bound q next <|> next q
      else next q <|> searchMore eager body bound q next
    else next q

def search : Regex → Search
  | .empty, p, next => next p
  | .one k, p, next =>
    match p.rest with
    | [] => none
    | c :: t =>
      if k.admits c then next { previous := some c, rest := t, left := p.left - 1 } else none
  | .edge e, p, next => if e.holds p.previous p.rest.head? then next p else none
  | .seq a b, p, next => a.search p fun q => b.search q next
  | .either a b, p, next => a.search p next <|> b.search p next
  | .rounds eager least (some most) a, p, next =>
    searchTimes a.search least p fun q => searchUpTo eager a.search (most - least) q next
  | .rounds eager 0 none a, p, next =>
    let more := fun (_ : Unit) => searchMore eager a.search (p.left + 1) p next
    if eager then more () <|> next p else next p <|> more ()
  | .rounds eager (n + 1) none a, p, next =>
    searchTimes a.search n p fun q => searchMore eager a.search (q.left + 1) q next
  | .group a, p, next => a.search p next

/-- Takes away every match that is not empty, from left to right, after passing over `skip`
characters. -/
def stripFrom (r : Regex) : (skip : Nat) → Place → Text → Text
  | _, _, [] => []
  | skip, p, c :: t =>
    let after : Place := { previous := some c, rest := t, left := p.left - 1 }
    match skip with
    | skip + 1 => stripFrom r skip after t
    | 0 =>
      match (r.search p some).map fun stop => p.left - stop.left with
      | some (n + 1) => stripFrom r n after t
      | _ => c :: stripFrom r 0 after t

def strip (r : Regex) (t : Text) : Text := stripFrom r 0 (Place.start t) t

theorem stripFrom_sublist (r : Regex) (skip : Nat) (p : Place) (t : Text) :
    (r.stripFrom skip p t).Sublist t := by
  fun_induction stripFrom r skip p t with
  | case1 => exact List.nil_sublist _
  | case2 _ _ _ _ _ ih => exact ih.cons _
  | case3 _ _ _ _ _ _ ih => exact ih.cons _
  | case4 _ _ _ _ _ ih => exact ih.cons_cons _

/-- A class takes away all its characters. -/
theorem strip_one (k : CharClass) (t : Text) : (one k).strip t = t.filter (!k.admits ·) := by
  have hplace : ∀ p : Place, p.rest = t → p.left = t.length →
      stripFrom (one k) 0 p t = t.filter (!k.admits ·) := by
    induction t with
    | nil => exact fun _ _ _ => rfl
    | cons c t ih =>
      intro p hrest hleft
      have hafter := ih { previous := some c, rest := t, left := p.left - 1 } rfl (by simp [hleft])
      have hone : p.left - (p.left - 1) = 1 := by
        rw [hleft, List.length_cons]
        omega
      rw [stripFrom, search, hrest]
      by_cases hc : k.admits c = true
      · simp only [hc, if_true, Option.map_some, hone]
        rw [hafter, List.filter_cons_of_neg (by simp [hc])]
      · simp only [hc]
        rw [List.filter_cons_of_pos (by simp [hc])]
        exact congrArg (c :: ·) hafter
  exact hplace _ rfl rfl

/-! ### Written expressions -/

inductive Sign where
  | one (k : CharClass)
  | edge (e : Edge)
  | opening
  | closing
  | bar
  | rounds (eager : Bool) (least : Nat) (most : Option Nat)
  deriving DecidableEq, Repr

def Sign.ofEscape : Escape → Sign
  | .char c => .one (.single c)
  | .anyOf k => .one k
  | .edge e => .edge e

/-- Digits with white space around them, for a number that fits 32 bits. -/
def readCount : Reader Nat := fun t =>
  let t := trimStart t
  (Numeral.weight? (t.takeWhile Char.isDigit)).map fun n =>
    (n, trimStart (t.dropWhile Char.isDigit))

/-- Reads how often a part is repeated, after the opening bracket. -/
def readCounts : Reader (Nat × Option Nat) := fun t => do
  let closing := Char.ofNat 0x7D
  let (least, rest) ← readCount t
  match rest with
  | ',' :: c :: rest =>
    if c = closing then some ((least, none), rest)
    else do
      let (most, rest) ← readCount (c :: rest)
      if rest.head? = some closing ∧ least ≤ most then some ((least, some most), rest.tail)
      else none
  | c :: rest => if c = closing then some ((least, some least), rest) else none
  | [] => none

/-- Reads a sign of repetition; a question mark after it makes it reluctant. -/
def readRounds : Reader Sign := fun t => do
  let ((least, most), rest) ← match t with
    | '?' :: rest => some ((0, some 1), rest)
    | '+' :: rest => some ((1, none), rest)
    | '*' :: rest => some ((0, none), rest)
    | c :: rest => if c = Char.ofNat 0x7B then readCounts rest else none
    | [] => none
  match rest with
  | '?' :: rest => some (.rounds false least most, rest)
  | _ => some (.rounds true least most, rest)

def readSign : Reader Sign
  | [] => none
  | '[' :: t => (CharClass.read t).map fun (k, rest) => (.one k, rest)
  | '(' :: '?' :: ':' :: t => some (.opening, t)
  | '(' :: '?' :: _ => none
  | '(' :: t => some (.opening, t)
  | ')' :: t => some (.closing, t)
  | '|' :: t => some (.bar, t)
  | '.' :: t => some (.one (.complement (.single '\n')), t)
  | '^' :: t => some (.edge .textStart, t)
  | '$' :: t => some (.edge .textStop, t)
  | '\\' :: t => (Escape.read t).map fun (e, rest) => (.ofEscape e, rest)
  | c :: t =>
    if c = '?' ∨ c = '+' ∨ c = '*' ∨ c = Char.ofNat 0x7B then readRounds (c :: t)
    else some (.one (.single c), t)

def signsFrom : (skip : Nat) → Text → Option (List Sign)
  | _, [] => some []
  | skip + 1, _ :: t => signsFrom skip t
  | 0, c :: t => do
    let (sign, rest) ← readSign (c :: t)
    let signs ← signsFrom (t.length - rest.length) t
    some (sign :: signs)

/-- An open group: its finished alternatives and the parts of the current one, last first. -/
structure OpenGroup where
  finished : List Regex := []
  current : List Regex := []

def OpenGroup.sequence (g : OpenGroup) : Regex := seqOf g.current.reverse

def OpenGroup.close (g : OpenGroup) : Regex := eitherOf (g.sequence :: g.finished).reverse

def OpenGroup.add (g : OpenGroup) (r : Regex) : OpenGroup := { g with current := r :: g.current }

def assemble : List OpenGroup → OpenGroup → List Sign → Option Regex
  | [], g, [] => some g.close
  | _ :: _, _, [] => none
  | outer, g, .one k :: signs => assemble outer (g.add (.one k)) signs
  | outer, g, .edge e :: signs => assemble outer (g.add (.edge e)) signs
  | outer, g, .opening :: signs => assemble (g :: outer) {} signs
  | [], _, .closing :: _ => none
  | h :: outer, g, .closing :: signs => assemble outer (h.add (.group g.close)) signs
  | outer, g, .bar :: signs => assemble outer { finished := g.sequence :: g.finished } signs
  | outer, g, .rounds eager least most :: signs =>
    match g.current with
    | [] => none
    | r :: rest => assemble outer { g with current := .rounds eager least most r :: rest } signs

def ofText? (t : Text) : Option Regex :=
  ((signsFrom 0 t).bind (assemble [] {})).filter fun r =>
    r.depth .inside ≤ Outline.depthLimit

end Regex

end Dialogue
