import Dialogue.Topic.Rank
import Dialogue.Topic.Walk
import Mathlib.Data.List.Basic
import Mathlib.Data.List.TakeWhile

/-! Numerals that were written are read again, and so are the marks of levels made of them. -/
namespace Dialogue

namespace Numeral

theorem digitsFrom_eq {t : Text} (h : ∀ c ∈ t, c.isDigit) (value : Nat) :
    digitsFrom value t = some (Nat.ofDigitChars 10 t value) := by
  induction t generalizing value with
  | nil => simp [digitsFrom]
  | cons c t ih =>
    have hc : c.isDigit := h c (by simp)
    rw [digitsFrom, if_pos hc, ih fun d hd => h d (by simp [hd]), Nat.ofDigitChars_cons]

theorem isDigit_of_mem_ofNat {n : Nat} {c : Char} (h : c ∈ ofNat n) : c.isDigit :=
  Nat.isDigit_of_mem_toDigits (by decide) (by decide) h

theorem ofNat_ne_nil (n : Nat) : ofNat n ≠ [] := Nat.toDigits_ne_nil

theorem digits?_ofNat (n : Nat) : digits? (ofNat n) = some n := by
  rw [digits?, if_neg (ofNat_ne_nil n), digitsFrom_eq fun c => isDigit_of_mem_ofNat]
  exact congrArg some Nat.ofDigitChars_ten_toDigits

theorem head_ofNat_ne_plus (n : Nat) (rest : Text) : ofNat n ≠ '+' :: rest := by
  intro h
  have hd : '+'.isDigit := isDigit_of_mem_ofNat (n := n) (h ▸ List.mem_cons_self)
  exact absurd hd (by decide)

theorem below?_ofNat (bound n : Nat) :
    below? bound (ofNat n) = if n < bound then some n else none := by
  rw [below?.eq_2 _ _ (head_ofNat_ne_plus n), digits?_ofNat, Option.filter_some]
  simp only [decide_eq_true_eq]

end Numeral

theorem Text.ascii_of_isDigit {c : Char} (h : c.isDigit) : c.toNat < 0x80 := by
  simp only [Char.isDigit, Bool.and_eq_true, decide_eq_true_eq] at h
  have h9 : c.toNat ≤ '9'.toNat := h.2
  have : '9'.toNat = 57 := rfl
  omega

theorem Text.isDigit_of_isDigit {c : Char} (h : c.isDigit) : Text.isDigit c := by
  rw [Text.isDigit, if_pos (ascii_of_isDigit h), h]

/-- A class of characters is read up to a character that is not in it. -/
theorem Text.read_while {p : Char → Bool} {s : Text} {d : Char} (h : ∀ c ∈ s, p c = true)
    (hd : p d = false) (t : Text) :
    (s ++ d :: t).takeWhile p = s ∧ (s ++ d :: t).dropWhile p = d :: t := by
  have hnot : ¬ p d = true := Bool.eq_false_iff.mp hd
  rw [List.takeWhile_append_of_pos h, List.dropWhile_append_of_pos h, List.takeWhile_cons_of_neg hnot,
    List.dropWhile_cons_of_neg hnot]
  exact ⟨List.append_nil s, rfl⟩

namespace Entry

theorem levelMark_append (level : Nat) (t : Text) :
    Topics.levelMark level ++ t =
      ("\x7binherits=" : Text) ++ (Numeral.ofNat level ++ '}' :: t) := by
  unfold Topics.levelMark
  simp only [List.append_assoc]
  rfl

/-- The mark of a level is read back, whatever follows it. -/
theorem readLevel_levelMark (level : Nat) (t : Text) :
    readLevel (Topics.levelMark level ++ t) = some (Numeral.ofNat level, t) := by
  have hrest : List.isPrefixOf? ("\x7binherits=" : Text) (Topics.levelMark level ++ t) =
      some (Numeral.ofNat level ++ '}' :: t) := by
    rw [levelMark_append, List.isPrefixOf?_eq_some_iff_append_eq]
  have hdigits : ∀ c ∈ Numeral.ofNat level, Text.isDigit c = true := fun c hc =>
    Text.isDigit_of_isDigit (Numeral.isDigit_of_mem_ofNat hc)
  have hbrace : Text.isDigit '}' = false := by decide
  obtain ⟨htake, hdrop⟩ := Text.read_while hdigits hbrace t
  rw [readLevel, hrest]
  simp only [Option.bind_eq_bind, Option.bind_some, htake, hdrop]
  split
  · rename_i h
    exact absurd h (Numeral.ofNat_ne_nil level)
  · rename_i h _
    cases h
    rfl
  · rename_i h
    exact absurd rfl (h t)

@[simp] theorem pattern_levelMark (level : Nat) (t : Text) :
    (ofText (Topics.levelMark level ++ t)).pattern = t := by
  simp [ofText, readLevel_levelMark]

@[simp] theorem level_levelMark (level : Nat) (t : Text) :
    (ofText (Topics.levelMark level ++ t)).level =
      if level < Nat.pow 2 64 then some level else none := by
  simp only [ofText, readLevel_levelMark]
  exact Numeral.below?_ofNat _ _

theorem ofText_of_readLevel_none {t : Text} (h : readLevel t = none) :
    (ofText t).pattern = t ∧ (ofText t).level = none := by
  simp [ofText, h]

end Entry

end Dialogue
