import Dialogue.Text.Digit
import Dialogue.Text.Space
import Mathlib.Data.List.Infix
import Mathlib.Data.List.TakeWhile

/-! White space around texts. Trimming takes nothing else away, and no digit is white space. -/
namespace Dialogue.Text

theorem Ranges.exists_of_contains {ranges : Ranges} {n : Nat} (h : ranges.contains n) :
    ∃ r ∈ ranges, r.1 ≤ n ∧ n ≤ r.2 := by
  induction ranges with
  | nil => cases h
  | cons r ranges ih =>
    rw [contains] at h
    split at h
    · cases h
    · rename_i hfirst
      split at h
      · rename_i hlast
        exact ⟨r, List.mem_cons_self, Nat.le_of_not_lt hfirst, hlast⟩
      · obtain ⟨r', hmem, hin⟩ := ih h
        exact ⟨r', List.mem_cons_of_mem _ hmem, hin⟩

theorem isSpace_of_isDigit {c : Char} (h : isDigit c) : isSpace c = false := by
  have hapart : ∀ s ∈ spaceRanges, s.2 < 0x30 ∨ 0x39 < s.1 ∧
      ∀ d ∈ digitRanges, s.2 < d.1 ∨ d.2 < s.1 := by
    decide
  rw [← Bool.not_eq_true]
  intro hspace
  obtain ⟨s, hs, hfirst, hlast⟩ := Ranges.exists_of_contains hspace
  rw [isDigit] at h
  split at h
  · simp only [Char.isDigit, Bool.and_eq_true, decide_eq_true_eq, ge_iff_le, UInt32.le_iff_toNat_le]
      at h
    have hten : 0x30 ≤ c.toNat ∧ c.toNat ≤ 0x39 := h
    rcases hapart s hs with hlow | ⟨hhigh, -⟩ <;> omega
  · obtain ⟨d, hd, hdigit⟩ := Ranges.exists_of_contains h
    have hbeyond : ∀ d ∈ digitRanges, 0x30 ≤ d.1 := by
      decide
    have hd30 := hbeyond d hd
    rcases hapart s hs with hlow | ⟨-, hall⟩
    · omega
    · rcases hall d hd with hbefore | hafter <;> omega

theorem trimEnd_append (s t : Text) :
    trimEnd (s ++ t) = if trimEnd t = [] then trimEnd s else s ++ trimEnd t := by
  simp only [trimEnd, List.reverse_append, List.dropWhile_append, List.reverse_eq_nil_iff,
    List.isEmpty_iff]
  split <;> simp

theorem trimEnd_eq_nil {t : Text} (h : ∀ c ∈ t, isSpace c) : trimEnd t = [] := by
  rw [trimEnd, List.dropWhile_eq_nil_iff.mpr fun c hc => h c (List.mem_reverse.mp hc)]
  rfl

theorem trimEnd_append_of_solid {s : Text} (h : ∀ c ∈ s, isSpace c = false) (t : Text) :
    trimEnd (s ++ t) = s ++ trimEnd t := by
  induction s with
  | nil => rfl
  | cons c s ih =>
    rw [List.forall_mem_cons] at h
    have hc : trimEnd [c] = [c] := by
      simp [trimEnd, h.1]
    have hcons := trimEnd_append [c] (s ++ t)
    rw [List.singleton_append, ih h.2, hc] at hcons
    rw [List.cons_append, hcons]
    split
    · rename_i hnil
      rw [List.cons_append, hnil]
    · rfl

/-- What trimming takes away in front. -/
theorem trimStart_eq (t : Text) : ∃ s, (∀ c ∈ s, isSpace c) ∧ t = s ++ trimStart t :=
  ⟨t.takeWhile isSpace, fun _ hc => List.mem_takeWhile_imp hc,
    List.takeWhile_append_dropWhile.symm⟩

theorem trimEnd_eq (t : Text) : ∃ s, (∀ c ∈ s, isSpace c) ∧ trimEnd t = s ++ trim t := by
  obtain ⟨s, hs, hsplit⟩ := trimStart_eq t
  have htrim := trimEnd_append s (trimStart t)
  rw [← hsplit, trimEnd_eq_nil hs] at htrim
  rw [htrim, trim]
  split
  · rename_i hnil
    refine ⟨[], by simp, ?_⟩
    rw [hnil]
    rfl
  · exact ⟨s, hs, rfl⟩

/-- A mark does not begin in a part without its first character. -/
theorem infix_of_append {mark s t : Text} (hmark : ∀ c, mark.head? = some c → c ∉ s)
    (h : mark <:+: s ++ t) : mark <:+: t := by
  cases mark with
  | nil => exact List.nil_infix
  | cons d mark =>
    have hd : d ∉ s := hmark d rfl
    induction s with
    | nil => exact h
    | cons c s ih =>
      rw [List.mem_cons, not_or] at hd
      rcases List.infix_cons_iff.mp h with hprefix | hinfix
      · exact absurd (List.cons_prefix_cons.mp hprefix).1 hd.1
      · exact ih (fun e he => by cases he; exact hd.2) hinfix hd.2

/-- Nor does it end in a part without its last character. -/
theorem infix_of_append_right {mark s t : Text} (hmark : ∀ c, mark.getLast? = some c → c ∉ t)
    (h : mark <:+: s ++ t) : mark <:+: s := by
  rw [← List.reverse_infix, List.reverse_append] at h
  rw [← List.reverse_infix]
  refine infix_of_append (fun c hc => ?_) h
  rw [List.mem_reverse]
  exact hmark c (by rwa [List.head?_reverse] at hc)

theorem infix_of_append_space {mark s t : Text} (hmark : ∀ c ∈ mark, isSpace c = false)
    (hs : ∀ c ∈ s, isSpace c) (h : mark <:+: s ++ t) : mark <:+: t := by
  refine infix_of_append (fun c hc hmem => ?_) h
  have hspace := hmark c (List.mem_of_head? hc)
  rw [hs c hmem] at hspace
  cases hspace

/-- Trimming takes nothing away from a mark without white space. -/
theorem infix_trim {mark t : Text} (hmark : ∀ c ∈ mark, isSpace c = false) (h : mark <:+: t) :
    mark <:+: trim t := by
  have htrimStart : ∀ {m u : Text}, (∀ c ∈ m, isSpace c = false) → m <:+: u → m <:+: trimStart u := by
    intro m u hm hu
    obtain ⟨s, hs, hsplit⟩ := trimStart_eq u
    rw [hsplit] at hu
    exact infix_of_append_space hm hs hu
  have hstart := htrimStart hmark h
  have hreverse : ∀ c ∈ mark.reverse, isSpace c = false := fun c hc =>
    hmark c (List.mem_reverse.mp hc)
  have hend := htrimStart hreverse (List.reverse_infix.mpr hstart)
  rw [← List.reverse_infix, trim, trimEnd, List.reverse_reverse]
  exact hend

end Dialogue.Text
