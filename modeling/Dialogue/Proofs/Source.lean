import Dialogue.Pattern.Matcher
import Mathlib.Data.Bool.AllAny

/-! The regular expression that a pattern is written as. Whatever its surroundings put in the place
of arrays and tags, it is well formed, since they only put in parts that are well formed. -/
namespace Dialogue

open Text

namespace Outline

theorem before_eq (o : Outline) (rest : Text) : o.before rest = o.written ++ rest := by
  induction o generalizing rest with
  | plain t => simp [written, before]
  | both a b iha ihb =>
    have hwritten : (Outline.both a b).written = a.written ++ b.written := by
      rw [written, before, iha, ihb, List.append_nil]
    rw [before, ihb, iha, hwritten, List.append_assoc]
  | level o ih => exact ih rest

@[simp] theorem written_plain (t : Text) : (plain t).written = t := List.append_nil t

@[simp] theorem written_append (a b : Outline) : (a ++ b).written = a.written ++ b.written := by
  show (both a b).written = _
  rw [written, before, before_eq, before_eq, List.append_nil]

@[simp] theorem written_level (o : Outline) : (level o).written = o.written := rfl

@[simp] theorem written_deepen (n : Nat) (o : Outline) : (deepen n o).written = o.written := by
  induction n with
  | zero => rfl
  | succ n ih => exact ih

end Outline

/-! ### Well-formed regular expressions -/

/-- Only after a whole unit can it be said how often it is there. -/
inductive Grammar.Part where
  | unit
  | any
  deriving DecidableEq

/-- The classes of digits and of white space. -/
def Grammar.classNames : List Char := ['d', 's']

/-- The syntax of regular expressions, as far as patterns need it. -/
inductive Grammar : Grammar.Part → Text → Prop where
  | char {c : Char} : isSign c = false → Grammar .unit [c]
  | escaped {c : Char} : isSign c → Grammar .unit ['\\', c]
  | dot : Grammar .unit ['.']
  | oneOf {name : Char} : name ∈ Grammar.classNames → Grammar .unit ['\\', name]
  | noneOf {names : List Char} : names ≠ [] → (∀ name ∈ names, name ∈ Grammar.classNames) →
      Grammar .unit (['[', '^'] ++ names.flatMap (fun name => ['\\', name]) ++ [']'])
  | edge : Grammar .any ['\\', 'b']
  | remembered {p : Grammar.Part} {t : Text} : Grammar p t → Grammar .unit (['('] ++ t ++ [')'])
  | group {p : Grammar.Part} {t : Text} :
      Grammar p t → Grammar .unit (['(', '?', ':'] ++ t ++ [')'])
  | repeated {t : Text} : Grammar .unit t → Grammar .any (t ++ ['+'])
  | repeatedLeast {t : Text} : Grammar .unit t → Grammar .any (t ++ ['+', '?'])
  | empty : Grammar .any []
  | row {p q : Grammar.Part} {t u : Text} : Grammar p t → Grammar q u → Grammar .any (t ++ u)
  | alternatives {p q : Grammar.Part} {t u : Text} :
      Grammar p t → Grammar q u → Grammar .any (t ++ ['|'] ++ u)

/-- It has to match from the start to the end. -/
def Grammar.Whole (t : Text) : Prop := ∃ u, Grammar .any u ∧ t = ['^'] ++ u ++ ['$']

namespace Expression

theorem grammar_escape (t : Text) : Grammar .any (escape t) := by
  induction t with
  | nil => exact .empty
  | cons c t ih =>
    have hsplit : escape (c :: t) = (if isSign c then ['\\', c] else [c]) ++ escape t :=
      List.flatMap_cons
    rw [hsplit]
    split
    · rename_i hc
      exact .row (.escaped hc) ih
    · rename_i hc
      exact .row (.char (Bool.eq_false_iff.mpr hc)) ih

theorem grammar_wild (w : Wildcard) : Grammar .any w.outline.written := by
  cases w with
  | anything => exact .repeatedLeast .dot
  | number => exact .repeatedLeast (.oneOf (by decide))
  | letters =>
    have hnames : ∀ name ∈ ['s', 'd'], name ∈ Grammar.classNames :=
      List.all_iff_forall_prop.mp (by decide)
    exact .repeatedLeast (.noneOf (by decide) hnames)

theorem grammar_outline (context : Outline.Context) (e : Expression) :
    Grammar .any (e.outline context).written := by
  induction e generalizing context with
  | literal t =>
    have hwritten : ((Expression.literal t).outline context).written = escape t := by
      unfold outline
      split <;> simp
    rw [hwritten]
    exact grammar_escape t
  | wild w => exact grammar_wild w
  | gap => exact .repeated (.group (.alternatives (.oneOf (by decide)) .edge))
  | seq a b iha ihb =>
    rw [outline, Outline.written_deepen, Outline.written_append]
    exact .row (iha .inRow) (ihb .inRow)
  | either a b iha ihb =>
    rw [outline, Outline.written_deepen]
    simp only [Outline.written_append]
    exact .alternatives (iha .inAlternatives) (ihb .inAlternatives)
  | group remember a ih =>
    have hunit : Grammar .unit ((Expression.group remember a).outline context).written := by
      rw [outline, Outline.written_level]
      simp only [Outline.written_append]
      cases remember with
      | true => exact .remembered (ih .inside)
      | false => exact .group (ih .inside)
    simpa using Grammar.row hunit .empty

/-- What an expression is written as is well formed. -/
theorem whole_wholeOutline (e : Expression) : Grammar.Whole e.wholeOutline.written := by
  refine ⟨_, grammar_outline .inRow e, ?_⟩
  rw [wholeOutline, Outline.written_level]
  simp only [Outline.written_append]
  rfl

end Expression

namespace Pattern

/-- The regular expression that a pattern is written as in some surroundings. -/
def source (s : Surroundings) (body : Text) : Except Malformed Text :=
  (items body).map fun is => (expression s is).wholeOutline.written

theorem source_eq_error {s : Surroundings} {body : Text} {cause : Malformed} :
    source s body = .error cause ↔ items body = .error cause := by
  rw [source]
  cases items body with
  | error other => exact ⟨fun h => by cases h; rfl, fun h => by cases h; rfl⟩
  | ok is => exact ⟨(nomatch ·), (nomatch ·)⟩

theorem whole_of_source {s : Surroundings} {body written : Text}
    (h : source s body = .ok written) : Grammar.Whole written := by
  rw [source] at h
  cases hi : items body with
  | error cause =>
    rw [hi] at h
    cases h
  | ok is =>
    rw [hi] at h
    cases h
    exact Expression.whole_wholeOutline _

end Pattern

end Dialogue
