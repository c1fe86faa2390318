import Dialogue.Callables

/-! Arguments of a call, as they are written and as they are read. An argument stands between double quotes, or
is bare if there is no white space in it; white space stands between the arguments and around them. -/
namespace Dialogue.CallText

open Text

/-- An argument and how it is written. -/
structure Argument where
  text : Text
  quoted : Bool
  ne : text ≠ []
  plain : '"' ∉ text
  bare : quoted = false → ∀ c ∈ text, isSpace c = false

/-- White space, or nothing. -/
structure Gap where
  text : Text
  space : ∀ c ∈ text, isSpace c = true

def Gap.of (text : Text) (h : text.all isSpace = true) : Gap := ⟨text, List.all_eq_true.mp h⟩

def Argument.written (a : Argument) : Text :=
  if a.quoted then '"' :: (a.text ++ ['"']) else a.text

/-- A gap, and then the arguments, each with the gap behind it. -/
def written (front : Gap) (as : List (Argument × Gap)) : Text :=
  front.text ++ as.flatMap fun a => a.1.written ++ a.2.text

/-- Arguments are told apart by white space, except that none is needed behind a quote. -/
def Apart : List (Argument × Gap) → Prop
  | [] => True
  | [_] => True
  | a :: next :: as => (a.1.quoted = false → a.2.text ≠ []) ∧ Apart (next :: as)

section Reading

variable {s t buffer : Text} {quoted : Bool}

theorem flush_of_ne (h : buffer ≠ []) (args : List Text) : flush buffer args = buffer :: args := if_neg h

/-- What belongs to an argument is collected. -/
theorem argsFrom_collect (hplain : '"' ∉ s) (hbare : quoted = false → ∀ c ∈ s, isSpace c = false)
    (buffer t : Text) : argsFrom quoted buffer (s ++ t) = argsFrom quoted (buffer ++ s) t := by
  induction s generalizing buffer with
  | nil => simp
  | cons c s ih =>
    simp only [List.mem_cons, not_or] at hplain
    have hspace : ¬ (isSpace c ∧ !quoted) := by
      rintro ⟨hc, hquoted⟩
      have hsolid := hbare (by simpa using hquoted) c List.mem_cons_self
      simp [hc] at hsolid
    have hquote : c ≠ '"' := fun h => hplain.1 h.symm
    have hrest : quoted = false → ∀ d ∈ s, isSpace d = false :=
      fun h d hd => hbare h d (List.mem_cons_of_mem c hd)
    rw [List.cons_append, argsFrom, if_neg hspace, if_neg hquote, ih hplain.2 hrest, List.append_assoc]
    rfl

/-- White space in front of an argument is passed over. -/
theorem argsFrom_space (hs : ∀ c ∈ s, isSpace c = true) (t : Text) :
    argsFrom false [] (s ++ t) = argsFrom false [] t := by
  induction s with
  | nil => rfl
  | cons c s ih =>
    rw [List.forall_mem_cons] at hs
    rw [List.cons_append, argsFrom, if_pos ⟨hs.1, rfl⟩, ih hs.2]
    rfl

/-- White space ends a bare argument, or the text does. -/
theorem argsFrom_end (hne : buffer ≠ []) (ht : ∀ c ∈ t.head?, isSpace c = true) :
    argsFrom false buffer t = buffer :: argsFrom false [] t := by
  cases t with
  | nil => simp [argsFrom, flush, hne]
  | cons c t =>
    have hc : isSpace c = true := ht c rfl
    rw [argsFrom, argsFrom, if_pos ⟨hc, rfl⟩, if_pos ⟨hc, rfl⟩, flush_of_ne hne]
    rfl

theorem argsFrom_bare (hne : s ≠ []) (hplain : '"' ∉ s) (hbare : ∀ c ∈ s, isSpace c = false)
    (ht : ∀ c ∈ t.head?, isSpace c = true) : argsFrom false [] (s ++ t) = s :: argsFrom false [] t := by
  rw [argsFrom_collect hplain (fun _ => hbare), List.nil_append, argsFrom_end hne ht]

theorem argsFrom_quoted (hne : s ≠ []) (hplain : '"' ∉ s) (t : Text) :
    argsFrom false [] ('"' :: (s ++ '"' :: t)) = s :: argsFrom false [] t := by
  have hopen : argsFrom false [] ('"' :: (s ++ '"' :: t)) = argsFrom true [] (s ++ '"' :: t) := by
    rw [argsFrom, if_neg (by decide), if_pos rfl]
    rfl
  have hclose : argsFrom true s ('"' :: t) = flush s (argsFrom false [] t) := by
    rw [argsFrom, if_neg (by decide), if_pos rfl]
    rfl
  rw [hopen, argsFrom_collect hplain (by simp), List.nil_append, hclose, flush_of_ne hne]

/-- An argument that is written is read, and what is behind it is read as if it stood at the front. -/
theorem argsFrom_written (a : Argument) (ht : a.quoted = false → ∀ c ∈ t.head?, isSpace c = true) :
    argsFrom false [] (a.written ++ t) = a.text :: argsFrom false [] t := by
  cases hquoted : a.quoted with
  | true =>
    have hwritten : a.written ++ t = '"' :: (a.text ++ '"' :: t) := by simp [Argument.written, hquoted]
    rw [hwritten, argsFrom_quoted a.ne a.plain]
  | false =>
    have hwritten : a.written = a.text := by simp [Argument.written, hquoted]
    rw [hwritten, argsFrom_bare a.ne a.plain (a.bare hquoted) (ht hquoted)]

end Reading

/-- Behind a bare argument there is white space, or nothing more. -/
theorem Apart.head {a : Argument} {gap : Gap} {as : List (Argument × Gap)} (h : Apart ((a, gap) :: as))
    (hbare : a.quoted = false) : ∀ c ∈ (written gap as).head?, isSpace c = true := by
  cases hgap : gap.text with
  | nil =>
    cases as with
    | nil => simp [written, hgap]
    | cons next as => exact absurd hgap (h.1 hbare)
  | cons c s =>
    have hc : isSpace c = true := gap.space c (by simp [hgap])
    simp [written, hgap, hc]

theorem Apart.tail {a : Argument × Gap} {as : List (Argument × Gap)} (h : Apart (a :: as)) : Apart as := by
  cases as with
  | nil => trivial
  | cons next as => exact h.2

/-- Arguments that are written are read as they are. -/
theorem args_written (front : Gap) (as : List (Argument × Gap)) (h : Apart as) :
    args (written front as) = as.map fun a => a.1.text := by
  induction as generalizing front with
  | nil =>
    rw [args, written, argsFrom_space front.space]
    rfl
  | cons a as ih =>
    obtain ⟨a, gap⟩ := a
    have hsplit : written front ((a, gap) :: as) = front.text ++ (a.written ++ written gap as) := by
      simp [written]
    calc args (written front ((a, gap) :: as))
        = argsFrom false [] (a.written ++ written gap as) := by
          rw [hsplit, args, argsFrom_space front.space]
      _ = a.text :: args (written gap as) := argsFrom_written a h.head
      _ = a.text :: as.map fun a => a.1.text := by rw [ih gap h.tail]

theorem bare_of_all {s : Text} (h : s.all (!isSpace ·) = true) : ∀ c ∈ s, isSpace c = false := by
  simpa using h

def order : List (Argument × Gap) :=
  [(⟨"pizza", false, by decide, by decide, fun _ => bare_of_all (by decide)⟩, .of " \t" (by decide)),
    (⟨"extra  cheese", true, by decide, by decide, by simp⟩, .of "" (by decide)),
    (⟨"now", false, by decide, by decide, fun _ => bare_of_all (by decide)⟩, .of "\n" (by decide))]

/-- A blank inside of quotes belongs to the argument, and a quote may touch the next argument. -/
theorem order_args : Apart order ∧
    written (.of " " (by decide)) order = " pizza \t\"extra  cheese\"now\n" ∧
    args " pizza \t\"extra  cheese\"now\n" =
      (["pizza", "extra  cheese", "now"] : List Text) := by
  have hapart : Apart order := ⟨by decide, by decide, trivial⟩
  have hread := args_written (.of " " (by decide)) order hapart
  have hwritten : written (.of " " (by decide)) order = " pizza \t\"extra  cheese\"now\n" := by decide
  rw [hwritten] at hread
  exact ⟨hapart, hwritten, hread⟩

end Dialogue.CallText
