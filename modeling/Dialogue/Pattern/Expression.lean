import Dialogue.Pattern.Phrase

/-! Matching. An expression has alternatives in an order of preference, and a match of the
whole message is the one whose choices are preferred from left to right. From right to left
every part turns what can follow each place of the message into what can start there, so no
choice has to be taken back. -/
namespace Dialogue

open Text

def Wildcard.admits : Wildcard → Char → Bool
  | .anything, c => c != '\n'
  | .number, c => isDigit c
  | .letters, c => !isSpace c && !isDigit c

inductive Expression where
  | literal (t : Text)
  /-- One or more characters, as few as possible. -/
  | wild (w : Wildcard)
  /-- White space, as much as possible, or the edge of a word. -/
  | gap
  | seq (a b : Expression)
  | either (a b : Expression)
  | group (remember : Bool) (a : Expression)
  deriving DecidableEq, Repr

/-- A stretch of a message. A place is known by what is left of the message there. -/
structure Span where
  start : Text := []
  stop : Text := []

def Span.text (s : Span) : Text := s.start.take (s.start.length - s.stop.length)

/-- How a match goes on from a place to the end of the message. -/
structure Course where
  /-- Where the groups that are open at the place end, the innermost first. -/
  stops : List Text := []
  /-- What is remembered from here on. -/
  spans : List Span := []

namespace Course

def close (stop : Text) (c : Course) : Course := { c with stops := stop :: c.stops }

def remember (start : Text) (c : Course) : Course :=
  match c.stops with
  | [] => c
  | stop :: stops => { stops, spans := { start, stop } :: c.spans }

/-- Parts that were not taken remember empty texts. -/
def skip (n : Nat) (c : Course) : Course := { c with spans := List.replicate n {} ++ c.spans }

end Course

/-- For every place of a message, its end included, how a match goes on there, if it can. -/
abbrev Courses := List (Option Course)

def Courses.here (k : Courses) : Option Course := k.headD none

namespace Expression

def captures : Expression → Nat
  | .literal _ | .wild _ | .gap => 0
  | .seq a b | .either a b => a.captures + b.captures
  | .group remember a => if remember then a.captures + 1 else a.captures

def literalCourses (s : Text) : Text → Courses → Courses
  | [], k => [if s.isEmpty then k.here else none]
  | c :: t, k =>
    (if s.isPrefixOf (c :: t) then Courses.here (k.drop s.length) else none) ::
      literalCourses s t k.tail

def wildCourses (w : Wildcard) : Text → Courses → Courses
  | [], _ => [none]
  | c :: t, k =>
    let later := wildCourses w t k.tail
    (if w.admits c then (Courses.here k.tail).or later.here else none) :: later

/-- White space, as much as possible and perhaps none. -/
def spaceCourses : Text → Courses → Courses
  | [], k => [k.here]
  | c :: t, k =>
    let later := spaceCourses t k.tail
    ((if isSpace c then later.here else none).or k.here) :: later

/-- The second list of courses is for the places after the first white space. -/
def gapCourses (previous : Option Char) : Text → Courses → Courses → Courses
  | [], k, _ => [if isBoundary previous none then k.here else none]
  | c :: t, k, spaces =>
    ((if isSpace c then Courses.here spaces.tail else none).or
      (if isBoundary previous (some c) then k.here else none)) ::
      gapCourses (some c) t k.tail spaces.tail

def places : Text → List Text
  | [] => [[]]
  | c :: t => (c :: t) :: places t

def atPlaces (f : Text → Course → Course) (t : Text) (k : Courses) : Courses :=
  List.zipWith (fun place => Option.map (f place)) (places t) k

/-- From what can follow the expression at each place of a message to what can start there. -/
def courses : Expression → Text → Courses → Courses
  | .literal s, t, k => literalCourses s t k
  | .wild w, t, k => wildCourses w t k
  | .gap, t, k => gapCourses none t k (spaceCourses t k)
  | .seq a b, t, k => a.courses t (b.courses t k)
  | .either a b, t, k =>
    List.zipWith Option.or
      (a.courses t (k.map (Option.map (Course.skip b.captures))))
      ((b.courses t k).map (Option.map (Course.skip a.captures)))
  | .group false a, t, k => a.courses t k
  | .group true a, t, k =>
    atPlaces Course.remember t (a.courses t (atPlaces Course.close t k))

def finish : Text → Courses
  | [] => [some {}]
  | _ :: t => none :: finish t

def match? (e : Expression) (message : Text) : Option (List Text) :=
  (Courses.here (e.courses message (finish message))).map fun c => c.spans.map Span.text

def eitherOf : List Expression → Expression
  | [] => .literal []
  | [e] => e
  | e :: es => .either e (eitherOf es)

end Expression

end Dialogue
