import Dialogue.Proofs.Numeral
import Dialogue.Proofs.Order
import Dialogue.Reply.Selection
import Mathlib.Data.List.Induction

/-! Texts that are words and nothing else, and what the scan of a trigger and its matcher make of
them: they are atomic, and they match only themselves. -/
namespace Dialogue

namespace Text

/-! ### Words -/

theorem pieces_ne_nil (sep : Char → Bool) (t : Text) : pieces sep t ≠ [] := by
  cases t with
  | nil => exact List.cons_ne_nil _ _
  | cons c t =>
    rw [pieces]
    split
    · exact List.cons_ne_nil _ _
    · split <;> exact List.cons_ne_nil _ _

theorem pieces_concat {sep : Char → Bool} {c : Char} (hc : sep c) (t : Text) :
    pieces sep (t ++ [c]) = pieces sep t ++ [[]] := by
  induction t with
  | nil => simp [pieces, hc]
  | cons d t ih =>
    rw [List.cons_append, pieces, pieces, ih]
    split
    · rfl
    · cases hp : pieces sep t with
      | nil => exact absurd hp (pieces_ne_nil sep t)
      | cons piece rest => rfl

theorem words_cons_space {c : Char} (hc : isSpace c) (t : Text) : words (c :: t) = words t := by
  simp [words, pieces, hc]

theorem words_concat_space {c : Char} (hc : isSpace c) (t : Text) :
    words (t ++ [c]) = words t := by
  simp [words, pieces_concat hc]

theorem words_trimStart (t : Text) : words (trimStart t) = words t := by
  induction t with
  | nil => rfl
  | cons c t ih =>
    by_cases hc : isSpace c = true
    · rw [words_cons_space hc, ← ih, trimStart, List.dropWhile_cons_of_pos hc, trimStart]
    · rw [trimStart, List.dropWhile_cons_of_neg hc]

theorem words_trimEnd (t : Text) : words (trimEnd t) = words t := by
  induction t using List.reverseRecOn with
  | nil => rfl
  | append_singleton t c ih =>
    rw [trimEnd, List.reverse_append, List.reverse_singleton, List.singleton_append]
    by_cases hc : isSpace c = true
    · rw [List.dropWhile_cons_of_pos hc, words_concat_space hc]
      exact ih
    · rw [List.dropWhile_cons_of_neg hc]
      simp

theorem collapse_trim (t : Text) : collapse (trim t) = collapse t := by
  rw [collapse, collapse, trim, words_trimEnd, words_trimStart]

theorem mem_trim {c : Char} {t : Text} (h : c ∈ t) (hc : isSpace c = false) : c ∈ trim t := by
  have hdrop : ∀ {u : Text}, c ∈ u → c ∈ u.dropWhile isSpace := by
    intro u hu
    rw [← List.takeWhile_append_dropWhile (p := isSpace) (l := u)] at hu
    rcases List.mem_append.mp hu with hspace | hrest
    · rw [List.mem_takeWhile_imp hspace] at hc
      cases hc
    · exact hrest
  exact List.mem_reverse.mpr (hdrop (List.mem_reverse.mpr (hdrop h)))

theorem mem_of_mem_trim {c : Char} {t : Text} (h : c ∈ trim t) : c ∈ t := by
  rw [trim, trimEnd, List.mem_reverse] at h
  have h := (List.dropWhile_sublist _).mem h
  rw [List.mem_reverse] at h
  exact (List.dropWhile_sublist _).mem h

/-! ### Readers that never succeed -/

variable {α : Type} {t : Text}

theorem find?_eq_none_iff {read : Reader α} :
    find? read t = none ↔ ∀ u, u <:+ t → u ≠ [] → read u = none := by
  induction t with
  | nil => exact iff_of_true rfl fun u hu hne => absurd (List.suffix_nil.mp hu) hne
  | cons c t ih =>
    rw [find?]
    cases hr : read (c :: t) with
    | some found =>
      refine iff_of_false (fun h => nomatch h) fun h => ?_
      rw [h _ List.suffix_rfl (List.cons_ne_nil _ _)] at hr
      cases hr
    | none =>
      rw [Option.map_eq_none_iff, ih]
      constructor
      · intro h u hu hne
        rcases List.suffix_cons_iff.mp hu with rfl | hu
        · exact hr
        · exact h u hu hne
      · exact fun h u hu => h u (hu.trans (List.suffix_cons c t))

/-- Nothing is edited where the reader does not succeed. -/
theorem edit_append {read : Reader Text} {p : Text}
    (h : ∀ u, u <:+ p → u ≠ [] → read (u ++ t) = none) : edit read (p ++ t) = p ++ edit read t := by
  rw [edit]
  induction p with
  | nil => rfl
  | cons c p ih =>
    have hread : read (c :: (p ++ t)) = none := h (c :: p) List.suffix_rfl (List.cons_ne_nil _ _)
    rw [List.cons_append, editFrom, hread]
    exact congrArg (c :: ·) (ih fun u hu => h u (hu.trans (List.suffix_cons c p)))

theorem edit_of_none {read : Reader Text} (h : ∀ u, u <:+ t → u ≠ [] → read u = none) :
    edit read t = t := by
  have hedit : edit read (t ++ []) = t ++ edit read [] := edit_append fun u hu hne => by
    rw [List.append_nil]
    exact h u hu hne
  rw [List.append_nil] at hedit
  exact hedit.trans (List.append_nil t)

end Text

namespace Weight

open Text

variable {t : Text}

theorem first?_eq_none_iff : first? t = none ↔ ∀ u, u <:+ t → read u = none := by
  rw [first?, Option.map_eq_none_iff, find?_eq_none_iff]
  refine forall₂_congr fun u _ => ⟨fun h => ?_, fun h _ => h⟩
  by_cases hne : u = []
  · rw [hne]
    rfl
  · exact h hne

theorem remove_of_none (h : first? t = none) : remove t = t :=
  edit_of_none fun u hu _ => by rw [first?_eq_none_iff.mp h u hu]; rfl

theorem strip_of_none (h : first? t = none) : strip t = trim t := by
  rw [strip, edit_of_none fun u hu _ => ?_]
  have hread : read (trimStart u) = none :=
    first?_eq_none_iff.mp h _ ((List.dropWhile_suffix _).trans hu)
  rw [readWithSpace, hread]
  rfl

theorem ofTrigger_of_none (h : first? t = none) : ofTrigger t = 0 := by
  rw [ofTrigger, h]
  rfl

end Weight

/-! ### What the scan sees -/

namespace Shape

theorem scan_flags (s : Shape) (escaped : Bool) (t : Text) :
    (s.scan escaped t).number = (s.number || decide ('#' ∈ t)) ∧
      (s.scan escaped t).anything = (s.anything || decide ('*' ∈ t)) ∧
        (s.scan escaped t).optional = (s.optional || decide ('[' ∈ t)) := by
  fun_induction scan s escaped t with
  | case1 => simp
  | case2 => simp_all
  | case3 s escaped c t hc s' ih =>
    rw [ih.1, ih.2.1, ih.2.2]
    dsimp only [s']
    split
    · simp
    · simp
    · simp
    · simp
    · rename_i hletters hnumber hanything hoptional
      simp [Ne.symm hnumber, Ne.symm hanything, Ne.symm hoptional]

/-- Without a backslash no underscore is escaped. -/
theorem scan_letters (s : Shape) (t : Text) (h : '\\' ∉ t) :
    (s.scan false t).letters = (s.letters || decide ('_' ∈ t)) := by
  induction t generalizing s with
  | nil => simp [scan]
  | cons c t ih =>
    rw [List.mem_cons, not_or] at h
    unfold scan
    split
    · rename_i heq
      cases heq
    · rename_i heq
      cases heq
      exact absurd rfl h.1
    · rename_i heq
      cases heq
      rw [ih _ h.2]
      split
      · simp
      · simp
      · simp
      · simp
      · rename_i hletters _ _ _
        simp [Ne.symm hletters]

theorem eq_empty {s : Shape} (hletters : s.letters = false) (hnumber : s.number = false)
    (hanything : s.anything = false) (hoptional : s.optional = false) : s = {} := by
  cases s
  subst hletters hnumber hanything hoptional
  rfl

/-- Texts in which no sign of the scan stands are atomic. -/
theorem scan_eq_empty {t : Text} (h : ∀ c ∈ t, c ∉ "\\_#*[".toList) : scan {} false t = {} := by
  have habsent : ∀ c ∈ "\\_#*[".toList, c ∉ t := fun c hc ht => h c ht hc
  obtain ⟨hnumber, hanything, hoptional⟩ := scan_flags {} false t
  have hletters := scan_letters {} t (habsent '\\' (by decide))
  refine eq_empty ?_ ?_ ?_ ?_
  · simpa [habsent '_' (by decide)] using hletters
  · simpa [habsent '#' (by decide)] using hnumber
  · simpa [habsent '*' (by decide)] using hanything
  · simpa [habsent '[' (by decide)] using hoptional

/-- What is atomic to the scan has no wildcard and no optional part. -/
theorem not_mem_of_scan {t : Text} (h : scan {} false t = {}) :
    '#' ∉ t ∧ '*' ∉ t ∧ '[' ∉ t ∧ ('\\' ∉ t → '_' ∉ t) := by
  obtain ⟨hnumber, hanything, hoptional⟩ := scan_flags {} false t
  rw [h] at hnumber hanything hoptional
  refine ⟨by simpa using hnumber, by simpa using hanything, by simpa using hoptional, ?_⟩
  intro hbackslash
  have hletters := scan_letters {} t hbackslash
  rw [h] at hletters
  simpa using hletters

end Shape

namespace Pattern

/-- Signs that a matcher takes for more than themselves and the scan does not. -/
def hiddenSigns : Text := "(<@\\"

theorem isVerbatim_iff {t : Text} : isVerbatim t ↔ ∀ c ∈ t, c ∉ "*#_([<@\\".toList := by
  simp [isVerbatim]

theorem isVerbatim_of_scan {t : Text} (h : Shape.scan {} false t = {})
    (hsigns : ∀ c ∈ hiddenSigns, c ∉ t) : isVerbatim t := by
  obtain ⟨hnumber, hanything, hoptional, hletters⟩ := Shape.not_mem_of_scan h
  have hletters := hletters (hsigns '\\' (by decide))
  rw [isVerbatim_iff]
  intro c hc hsign
  have hcases : c = '*' ∨ c = '#' ∨ c = '_' ∨ c = '[' ∨ c ∈ hiddenSigns := by
    revert hsign
    simp [hiddenSigns]
    grind
  rcases hcases with rfl | rfl | rfl | rfl | hhidden
  · exact hanything hc
  · exact hnumber hc
  · exact hletters hc
  · exact hoptional hc
  · exact hsigns c hhidden hc

theorem isVerbatim_trim {t : Text} (h : isVerbatim t) : isVerbatim (Text.trim t) :=
  isVerbatim_iff.mpr fun c hc => isVerbatim_iff.mp h c (Text.mem_of_mem_trim hc)

end Pattern

namespace Entry

def plain (level : Option Nat) (t : Text) : Entry where
  pattern := t
  level := level
  words := countWords t
  shape := Shape.scan {} false t

variable {t : Text}

theorem ofText_of_none (hlevel : readLevel t = none) (hweight : Weight.first? t = none) :
    ofText t = plain none t := by
  simp [ofText, plain, hlevel, Weight.remove_of_none hweight, Weight.ofTrigger_of_none hweight]

theorem ofText_levelMark (level : Nat) (hweight : Weight.first? t = none) :
    ofText (Topics.levelMark level ++ t) =
      plain (if level < Nat.pow 2 64 then some level else none) t := by
  have hlevel := level_levelMark level t
  simp only [ofText, readLevel_levelMark] at hlevel ⊢
  simp [plain, Weight.remove_of_none hweight, Weight.ofTrigger_of_none hweight, hlevel]

theorem readLevel_of_not_mem (h : '\x7b' ∉ t) : readLevel t = none := by
  rw [readLevel]
  cases hp : List.isPrefixOf? ("\x7binherits=" : Text) t with
  | none => rfl
  | some rest =>
    rw [List.isPrefixOf?_eq_some_iff_append_eq] at hp
    exact absurd (hp ▸ List.mem_cons_self) h

theorem place_eq_zero {kind : Kind} : kind.place = 0 ↔ kind = .atomic := by
  cases kind <;> simp [Kind.place]

theorem kind_eq_atomic {e : Entry} : e.kind = .atomic ↔ e.shape = {} := by
  constructor
  · intro h
    unfold kind at h
    split_ifs at h with hletters _ hnumber _ hanything _ hoptional
    exact Shape.eq_empty (by simpa using hletters) (by simpa using hnumber)
      (by simpa using hanything) (by simpa using hoptional)
  · intro h
    rw [kind, h]
    rfl

/-- More words, or as many and more characters, or as many of those and an earlier text. -/
def Ahead (s t : Text) : Prop :=
  ((compare (countWords t) (countWords s)).then <|
    (compare t.length s.length).then (compare s t)) = .lt

/-- Nothing but what is atomic itself can be ranked before an atomic entry of its level. -/
theorem order_plain_lt {level : Option Nat} {s : Text} (ht : Shape.scan {} false t = {})
    (h : order (plain level s) (plain level t) = .lt) : Shape.scan {} false s = {} ∧ Ahead s t := by
  have hkind : (plain level t).kind = .atomic := kind_eq_atomic.mpr ht
  have hlevel : compareLevels level level = .eq := Std.ReflCmp.compare_self
  have hrest : ((compare (plain level s).kind.place Kind.atomic.place).then
      ((compare (countWords t) (countWords s)).then
        ((compare t.length s.length).then (compare s t)))) = .lt := by
    rw [order, hkind] at h
    simpa [plain, hlevel] using h
  rcases Ordering.then_eq_lt.mp hrest with hlt | ⟨heq, hahead⟩
  · exact absurd (Nat.compare_eq_lt.mp hlt) (Nat.not_lt_zero _)
  · have hplace : (plain level s).kind.place = 0 := Nat.compare_eq_eq.mp heq
    exact ⟨kind_eq_atomic.mp (place_eq_zero.mp hplace), hahead⟩

end Entry

/-! ### Literal texts -/

/-- Words of letters and digits in small letters, with single blanks between them. -/
structure IsLiteral (t : Text) : Prop where
  lower : Text.lower t = t
  words : Text.collapse t = t
  chars : ∀ c ∈ t, c = ' ' ∨ Text.isAlphanumeric c = true

theorem isLiteral_iff {t : Text} : IsLiteral t ↔ Text.lower t = t ∧ Text.collapse t = t ∧
    (t.all fun c => c == ' ' || Text.isAlphanumeric c) = true := by
  simp only [List.all_eq_true, Bool.or_eq_true, beq_iff_eq]
  exact ⟨fun h => ⟨h.lower, h.words, h.chars⟩, fun h => ⟨h.1, h.2.1, h.2.2⟩⟩

-- Asked of all members, so that no instance for all characters is tried.
instance (t : Text) : Decidable (IsLiteral t) := decidable_of_iff _ isLiteral_iff.symm

namespace IsLiteral

variable {t : Text}

theorem not_mem (h : IsLiteral t) {c : Char} (hc : c ≠ ' ' ∧ Text.isAlphanumeric c = false) :
    c ∉ t := by
  intro ht
  rcases h.chars c ht with hblank | halnum
  · exact hc.1 hblank
  · rw [hc.2] at halnum
    cases halnum

theorem scan (h : IsLiteral t) : Shape.scan {} false t = {} := by
  refine Shape.scan_eq_empty fun c hc hsign => ?_
  have hcases : c = '\\' ∨ c = '_' ∨ c = '#' ∨ c = '*' ∨ c = '[' := by simpa using hsign
  rcases hcases with rfl | rfl | rfl | rfl | rfl <;> exact absurd hc (h.not_mem (by decide))

theorem readLevel (h : IsLiteral t) : Entry.readLevel t = none :=
  Entry.readLevel_of_not_mem (h.not_mem (by decide))

theorem isVerbatim (h : IsLiteral t) : Pattern.isVerbatim t :=
  Pattern.isVerbatim_of_scan h.scan fun c hc => by
    have hcases : c = '(' ∨ c = '<' ∨ c = '@' ∨ c = '\\' := by
      simpa [Pattern.hiddenSigns] using hc
    rcases hcases with rfl | rfl | rfl | rfl <;> exact h.not_mem (by decide)

end IsLiteral

namespace Selection

/-- A verbatim pattern matches what has the same words. -/
theorem tryPattern_of_isVerbatim (s : Surroundings) (strict : Bool) {pattern : Text}
    (hv : Pattern.isVerbatim pattern) (hweight : Weight.first? pattern = none) (message : Text) :
    tryPattern s strict pattern message =
      .ok (if Text.collapse pattern = message then some [] else none) := by
  have hm : Matcher.ofPattern s strict pattern = .ok (.exactly (Text.collapse pattern)) := by
    rw [Matcher.ofPattern, Weight.strip_of_none hweight]
    rw [if_pos (Pattern.isVerbatim_trim hv), Text.collapse_trim]
  rw [tryPattern, hm]
  rfl

theorem tryPattern_literal (s : Surroundings) (strict : Bool) {t : Text} (ht : IsLiteral t)
    (hweight : Weight.first? t = none) : tryPattern s strict t t = .ok (some []) := by
  rw [tryPattern_of_isVerbatim s strict ht.isVerbatim hweight, if_pos ht.words]

end Selection

/-! ### Literal messages -/

/-- A literal message keeps its form if it is in ASCII, and among the letters of all scripts if the
punctuation of the bot leaves it alone. -/
theorem Canon.format_literal (c : Canon) (hsub : c.substitution.entries = []) {t : Text}
    (ht : IsLiteral t)
    (hform : if c.utf8 then c.punctuation.strip t = t else ∀ d ∈ t, d.toNat < 0x80) :
    c.format false t = t := by
  have hclean : c.clean false t = t := by
    rw [clean]
    by_cases hu : c.utf8 = true
    · rw [if_pos hu] at hform ⊢
      have hkept : t.filter (!isMarkupSign ·) = t := by
        refine List.filter_eq_self.mpr fun d hd => ?_
        rw [Bool.not_eq_true', ← Bool.not_eq_true]
        intro hsign
        have hcases : d = '\\' ∨ d = '<' ∨ d = '>' := by
          simpa [isMarkupSign, or_assoc] using hsign
        rcases hcases with rfl | rfl | rfl <;> exact ht.not_mem (by decide) hd
      rw [hkept, hform]
      rfl
    · rw [if_neg hu] at hform ⊢
      refine List.filter_eq_self.mpr fun d hd => ?_
      rcases ht.chars d hd with rfl | halnum
      · decide
      · rw [Text.isAlphanumeric, if_pos (hform d hd)] at halnum
        simp [isPlain, halnum]
  rw [format, Substitution.apply, if_pos hsub, ht.lower, hclean, ht.words]

end Dialogue
