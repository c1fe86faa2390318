import Dialogue.Text.Case
import Dialogue.Text.WordChar

/-! Small letters stay small letters. Whatever a character is moved to is moved no further, which is
checked of the intervals of the table and not of each of its characters. Words stay words, and no letter
becomes a control character. -/
namespace Dialogue.Text

namespace Shift

/-- Where the first and the last character of the shift are moved to. -/
def lowest (s : Shift) : Nat := (s.first + s.offset).toNat

def highest (s : Shift) : Nat := (s.last + s.offset).toNat

/-- Only every second character of the interval is covered. -/
def alternates (s : Shift) : Bool := s.step == 2 || s.first == s.last

/-- There are characters where the shift leads to, and the first one is not among them. -/
def lands (s : Shift) : Bool :=
  Nat.blt 0 s.lowest &&
    (Nat.blt s.highest 0xD800 || (Nat.blt 0xDFFF s.lowest && Nat.blt s.highest 0x110000))

/-- Nothing is moved to what another shift covers: their intervals are apart, or the characters take
turns in them. -/
def avoids (s t : Shift) : Bool :=
  Nat.blt s.highest t.first || Nat.blt t.last s.lowest ||
    (s.alternates && t.step == 2 && (s.lowest + t.first) % 2 == 1)

theorem moved_bounds {s : Shift} {n : Nat} (h : s.covers n = true) (hnonneg : 0 ≤ s.first + s.offset) :
    s.lowest ≤ (n + s.offset).toNat ∧ (n + s.offset).toNat ≤ s.highest ∧
      (s.alternates = true → ((n + s.offset).toNat - s.lowest) % 2 = 0) := by
  simp only [covers, Bool.and_eq_true, decide_eq_true_eq, beq_iff_eq] at h
  obtain ⟨⟨hfirst, hlast⟩, hstep⟩ := h
  refine ⟨by rw [lowest]; omega, by rw [highest]; omega, fun halternates => ?_⟩
  rw [lowest]
  simp only [alternates, Bool.or_eq_true, beq_iff_eq] at halternates
  rcases halternates with htwo | hsingle
  · rw [htwo] at hstep
    omega
  · omega

theorem not_covers_of_avoids {s t : Shift} (h : s.avoids t = true) {m : Nat} (hlow : s.lowest ≤ m)
    (hhigh : m ≤ s.highest) (heven : s.alternates = true → (m - s.lowest) % 2 = 0) :
    t.covers m = false := by
  rw [Bool.eq_false_iff]
  intro hcovers
  simp only [covers, Bool.and_eq_true, decide_eq_true_eq, beq_iff_eq] at hcovers
  obtain ⟨⟨hfirst, hlast⟩, hstep⟩ := hcovers
  simp only [avoids, Bool.or_eq_true, Bool.and_eq_true, Nat.blt_eq, beq_iff_eq] at h
  rcases h with (hbelow | habove) | ⟨⟨halternates, htwo⟩, hodd⟩
  · omega
  · omega
  · have heven := heven halternates
    rw [htwo] at hstep
    omega

end Shift

theorem shifted_eq_none {shifts : List Shift} {n : Nat} (h : ∀ s ∈ shifts, s.covers n = false) :
    shifted shifts n = none := by
  induction shifts with
  | nil => rfl
  | cons s shifts ih =>
    rw [List.forall_mem_cons] at h
    rw [shifted, h.1, ih h.2]
    split <;> rfl

theorem shifted_eq_some {shifts : List Shift} {n m : Nat} (h : shifted shifts n = some m) :
    ∃ s ∈ shifts, s.covers n = true ∧ m = (n + s.offset).toNat := by
  induction shifts with
  | nil => cases h
  | cons s shifts ih =>
    rw [shifted] at h
    split at h
    · cases h
    · split at h
      · rename_i hcovers
        exact ⟨s, List.mem_cons_self, hcovers, (Option.some.inj h).symm⟩
      · obtain ⟨t, ht, hcovers⟩ := ih h
        exact ⟨t, List.mem_cons_of_mem _ ht, hcovers⟩

/-- The capital dotted i, which the table leaves out. -/
def dottedShift : Shift := ⟨0x130, 0x130, 1, 0⟩

theorem loweringShifts_avoid : ∀ s ∈ loweringShifts, 0 ≤ s.first + s.offset ∧
    ∀ t ∈ dottedShift :: loweringShifts, s.avoids t = true := by
  have hall : (loweringShifts.all fun s => decide (0 ≤ s.first + s.offset) &&
      (dottedShift :: loweringShifts).all s.avoids) = true := by
    decide +kernel
  simpa using hall

/-- No character is moved to a control character. -/
theorem loweringShifts_land : ∀ s ∈ loweringShifts, s.lands = true ∧ 0x20 ≤ s.lowest := by
  have hall : (loweringShifts.all fun s => s.lands && Nat.ble 0x20 s.lowest) = true := by
    decide +kernel
  simpa using hall

theorem toNat_of_shifted {shifts : List Shift} (hland : ∀ s ∈ shifts, s.lands = true ∧ 0x20 ≤ s.lowest)
    {n m : Nat} (h : shifted shifts n = some m) : (Char.ofNat m).toNat = m ∧ 0x20 ≤ m := by
  obtain ⟨s, hs, hcovers, rfl⟩ := shifted_eq_some h
  obtain ⟨hlands, hvisible⟩ := hland s hs
  have hnonneg : 0 ≤ s.first + s.offset := by
    rw [Shift.lowest] at hvisible
    omega
  obtain ⟨hlow, hhigh, -⟩ := Shift.moved_bounds hcovers hnonneg
  simp only [Shift.lands, Bool.and_eq_true, Bool.or_eq_true, Nat.blt_eq] at hlands
  have hvalid : Nat.isValidChar (n + s.offset).toNat := by
    show _ < _ ∨ _ < _ ∧ _ < _
    omega
  refine ⟨?_, by omega⟩
  rw [Char.ofNat, dif_pos hvalid]
  rfl

theorem toNat_of_moved {n m : Nat} (h : shifted loweringShifts n = some m) :
    (Char.ofNat m).toNat = m ∧ 0x20 ≤ m := toNat_of_shifted loweringShifts_land h

/-- The character is lowered to itself, wherever it stands. -/
structure IsLow (c : Char) : Prop where
  not_sigma : c.toNat ≠ 0x3A3
  lowerChar : lowerChar c = [c]

instance (c : Char) : Decidable (IsLow c) :=
  decidable_of_iff (c.toNat ≠ 0x3A3 ∧ Text.lowerChar c = [c]) ⟨fun h => ⟨h.1, h.2⟩, fun h => ⟨h.1, h.2⟩⟩

theorem isLow_of_shifted {c : Char} (hascii : ¬ c.toNat < 0x80) (hdotted : c.toNat ≠ 0x130)
    (h : shifted loweringShifts c.toNat = none) : IsLow c where
  not_sigma hsigma := by
    rw [hsigma] at h
    revert h
    decide
  lowerChar := by
    rw [lowerChar, if_neg hascii, if_neg hdotted, h]
    rfl

/-- What holds of the characters of ASCII can be checked of one after the other. -/
theorem forall_ascii {P : Char → Prop} (h : ∀ n < 0x80, P (Char.ofNat n)) (c : Char)
    (hc : c.toNat < 0x80) : P c := by
  have hn := h c.toNat hc
  rwa [Char.ofNat_toNat] at hn

theorem isLow_toLower : ∀ c : Char, c.toNat < 0x80 → IsLow c.toLower :=
  forall_ascii (by decide +kernel)

/-- What the table moves a character to is not in the table. -/
theorem isLow_of_moved {n m : Nat} (h : shifted loweringShifts n = some m) : IsLow (Char.ofNat m) := by
  have hm := (toNat_of_moved h).1
  obtain ⟨s, hs, hcovers, rfl⟩ := shifted_eq_some h
  obtain ⟨hnonneg, havoids⟩ := loweringShifts_avoid s hs
  obtain ⟨hlow, hhigh, heven⟩ := Shift.moved_bounds hcovers hnonneg
  generalize (n + s.offset).toNat = m at hm hlow hhigh heven
  have hfree : ∀ t ∈ dottedShift :: loweringShifts, t.covers m = false := fun t ht =>
    Shift.not_covers_of_avoids (havoids t ht) hlow hhigh heven
  rw [List.forall_mem_cons] at hfree
  obtain ⟨hdotted, hfree⟩ := hfree
  by_cases hascii : m < 0x80
  · have hsmall : ∀ n < 0x80, (⟨0x41, 0x5A, 1, 32⟩ : Shift).covers n = false →
        IsLow (Char.ofNat n) := by decide +kernel
    exact hsmall m hascii (hfree _ List.mem_cons_self)
  · refine isLow_of_shifted (by rwa [hm]) (fun heq => ?_) (by rw [hm]; exact shifted_eq_none hfree)
    rw [← hm, heq] at hdotted
    cases hdotted

theorem isLow_of_mem_lowerChar {c d : Char} (h : d ∈ lowerChar c) : IsLow d := by
  rw [lowerChar] at h
  split at h
  · rename_i hascii
    obtain rfl := List.mem_singleton.mp h
    exact isLow_toLower c hascii
  · rename_i hascii
    split at h
    · rcases List.mem_cons.mp h with rfl | h
      · decide
      · obtain rfl := List.mem_singleton.mp h
        decide
    · rename_i hdotted
      obtain rfl := List.mem_singleton.mp h
      cases hshift : shifted loweringShifts c.toNat with
      | none => exact isLow_of_shifted hascii hdotted hshift
      | some m => exact isLow_of_moved hshift

theorem isLow_of_mem_lower {t : Text} {d : Char} (h : d ∈ lower t) : IsLow d := by
  have hafter : ∀ before, d ∈ lowerAfter before t → IsLow d := by
    clear h
    induction t with
    | nil => exact fun _ h => nomatch h
    | cons c t ih =>
      intro before h
      rw [lowerAfter, List.mem_append] at h
      rcases h with h | h
      · split at h
        · have hsigmas : IsLow (Char.ofNat 0x3C2) ∧ IsLow (Char.ofNat 0x3C3) := by decide
          split at h
          · exact List.mem_singleton.mp h ▸ hsigmas.1
          · exact List.mem_singleton.mp h ▸ hsigmas.2
        · exact isLow_of_mem_lowerChar h
      · exact ih _ h
  exact hafter [] h

theorem lower_of_isLow {t : Text} (h : ∀ c ∈ t, IsLow c) : lower t = t := by
  have hafter : ∀ before, lowerAfter before t = t := by
    induction t with
    | nil => exact fun _ => rfl
    | cons c t ih =>
      intro before
      rw [List.forall_mem_cons] at h
      rw [lowerAfter, if_neg h.1.not_sigma, h.1.lowerChar, ih h.2]
      rfl
  exact hafter []

/-- The text is what lowering makes of it. -/
def Folded (t : Text) : Prop := lower t = t

instance (t : Text) : Decidable (Folded t) := inferInstanceAs (Decidable (lower t = t))

theorem folded_iff {t : Text} : Folded t ↔ ∀ c ∈ t, IsLow c := by
  refine ⟨fun h c hc => ?_, lower_of_isLow⟩
  rw [← h] at hc
  exact isLow_of_mem_lower hc

theorem folded_lower (t : Text) : Folded (lower t) := folded_iff.mpr fun _ => isLow_of_mem_lower

/-- Whether a sigma is final plays no part, since no capital letter is left. -/
@[simp] theorem folded_append {s t : Text} : Folded (s ++ t) ↔ Folded s ∧ Folded t := by
  simp only [folded_iff, List.forall_mem_append]

theorem folded_flatten {ts : List Text} : Folded ts.flatten ↔ ∀ t ∈ ts, Folded t := by
  induction ts with
  | nil => exact ⟨fun _ _ h => (nomatch h), fun _ => rfl⟩
  | cons t ts ih => rw [List.flatten_cons, folded_append, ih, List.forall_mem_cons]

/-! ### Words stay words -/

/-- One of the ranges holds everything from the one number to the other. -/
def Ranges.covers : Ranges → Nat → Nat → Bool
  | [], _, _ => false
  | (first, last) :: ranges, low, high =>
    Nat.ble first low && (Nat.ble high last || Ranges.covers ranges low high)

theorem Ranges.contains_of_covers {ranges : Ranges} {low high n : Nat}
    (h : ranges.covers low high = true) (hlow : low ≤ n) (hhigh : n ≤ high) :
    ranges.contains n = true := by
  induction ranges with
  | nil => cases h
  | cons range ranges ih =>
    obtain ⟨first, last⟩ := range
    simp only [covers, Bool.and_eq_true, Bool.or_eq_true, Nat.ble_eq] at h
    obtain ⟨hfirst, hrest⟩ := h
    rw [contains, if_neg (Nat.not_lt.mpr (Nat.le_trans hfirst hlow))]
    split
    · rfl
    · rename_i hlast
      exact ih (hrest.resolve_left fun hcovered => hlast (Nat.le_trans hhigh hcovered))

namespace Shift

/-- The shift leads to letters. Where it leads past those that are known, what it moves is not known to
be a letter either. -/
def keepsWords (s : Shift) : Bool :=
  letterRanges.covers s.lowest s.highest ||
    (List.range' s.first (s.last - s.first + 1)).all fun n =>
      !(s.covers n && isWordChar (Char.ofNat n)) || isWordChar (Char.ofNat (n + s.offset).toNat)

end Shift

theorem loweringShifts_keepWords : ∀ s ∈ loweringShifts, s.keepsWords = true := by
  have hall : loweringShifts.all Shift.keepsWords = true := by
    decide +kernel
  simpa using hall

theorem isWordChar_of_letter {c : Char} (h : letterRanges.contains c.toNat = true) :
    isWordChar c = true := by
  by_cases hascii : c.toNat < 0x80
  · have hall : ∀ c : Char, c.toNat < 0x80 → letterRanges.contains c.toNat = true →
        isWordChar c = true := forall_ascii (by decide +kernel)
    exact hall c hascii h
  · simp only [isWordChar, if_neg hascii, isLetter, h, Bool.true_or]

theorem isWordChar_of_moved {c : Char} {m : Nat} (hc : isWordChar c = true)
    (h : shifted loweringShifts c.toNat = some m) : isWordChar (Char.ofNat m) = true := by
  have hm := (toNat_of_moved h).1
  obtain ⟨s, hs, hcovers, rfl⟩ := shifted_eq_some h
  obtain ⟨hlow, hhigh, -⟩ := Shift.moved_bounds hcovers (loweringShifts_avoid s hs).1
  have hkeeps := loweringShifts_keepWords s hs
  rw [Shift.keepsWords, Bool.or_eq_true] at hkeeps
  rcases hkeeps with hletters | hwords
  · apply isWordChar_of_letter
    rw [hm]
    exact Ranges.contains_of_covers hletters hlow hhigh
  · have hmem : c.toNat ∈ List.range' s.first (s.last - s.first + 1) := by
      simp only [Shift.covers, Bool.and_eq_true, decide_eq_true_eq] at hcovers
      rw [List.mem_range'_1]
      omega
    have hword := List.all_eq_true.mp hwords _ hmem
    rw [Char.ofNat_toNat, hcovers, hc] at hword
    exact hword

theorem isWordChar_of_mem_lowerChar {c d : Char} (hc : isWordChar c = true) (h : d ∈ lowerChar c) :
    isWordChar d = true := by
  rw [lowerChar] at h
  split at h
  · rename_i hascii
    have hall : ∀ c : Char, c.toNat < 0x80 → isWordChar c = true → isWordChar c.toLower = true :=
      forall_ascii (by decide +kernel)
    rw [List.mem_singleton.mp h]
    exact hall c hascii hc
  · split at h
    · rcases List.mem_cons.mp h with rfl | h
      · decide
      · obtain rfl := List.mem_singleton.mp h
        decide
    · obtain rfl := List.mem_singleton.mp h
      cases hshift : shifted loweringShifts c.toNat with
      | none => exact hc
      | some m => exact isWordChar_of_moved hc hshift

/-- What a table moves a character to is no control character. -/
theorem eq_of_mem_shifted {shifts : List Shift} (hland : ∀ s ∈ shifts, s.lands = true ∧ 0x20 ≤ s.lowest)
    {c d : Char} (hd : d.toNat < 0x20) (h : d ∈ [((shifted shifts c.toNat).map Char.ofNat).getD c]) :
    d = c := by
  obtain rfl := List.mem_singleton.mp h
  cases hshift : shifted shifts c.toNat with
  | none => rfl
  | some m =>
    obtain ⟨hm, hvisible⟩ := toNat_of_shifted hland hshift
    rw [hshift] at hd
    have hcontrol : (Char.ofNat m).toNat < 0x20 := hd
    omega

/-- Control characters come from nothing but themselves. -/
theorem eq_of_control_mem_lowerChar {c d : Char} (hd : d.toNat < 0x20) (h : d ∈ lowerChar c) : d = c := by
  rw [lowerChar] at h
  split at h
  · rename_i hascii
    have hall : ∀ c : Char, c.toNat < 0x80 → c.toLower.toNat < 0x20 → c.toLower = c :=
      forall_ascii (by decide +kernel)
    obtain rfl := List.mem_singleton.mp h
    exact hall c hascii hd
  · split at h
    · rcases List.mem_cons.mp h with rfl | h
      · exact absurd hd (by decide)
      · obtain rfl := List.mem_singleton.mp h
        exact absurd hd (by decide)
    · exact eq_of_mem_shifted loweringShifts_land hd h

/-- What becomes of a character, wherever it stands. -/
theorem lowerAfter_cons (before : Text) (c : Char) (t : Text) :
    ∃ piece, lowerAfter before (c :: t) = piece ++ lowerAfter (c :: before) t ∧ piece ≠ [] ∧
      (isWordChar c = true → ∀ d ∈ piece, isWordChar d = true) ∧
      ∀ d ∈ piece, d.toNat < 0x20 → d = c := by
  rw [lowerAfter]
  refine ⟨_, rfl, ?_⟩
  split
  · split
    · exact ⟨List.cons_ne_nil _ _, fun _ => List.forall_mem_singleton.mpr (by decide),
        List.forall_mem_singleton.mpr fun hd => absurd hd (by decide)⟩
    · exact ⟨List.cons_ne_nil _ _, fun _ => List.forall_mem_singleton.mpr (by decide),
        List.forall_mem_singleton.mpr fun hd => absurd hd (by decide)⟩
  · refine ⟨?_, fun hc d => isWordChar_of_mem_lowerChar hc, fun d h hd => eq_of_control_mem_lowerChar hd h⟩
    rw [lowerChar]
    split
    · exact List.cons_ne_nil _ _
    · split <;> exact List.cons_ne_nil _ _

theorem mem_of_control_mem_lower {t : Text} {d : Char} (hd : d.toNat < 0x20) (h : d ∈ lower t) : d ∈ t := by
  have hafter : ∀ before, d ∈ lowerAfter before t → d ∈ t := by
    clear h
    induction t with
    | nil => exact fun _ h => h
    | cons c t ih =>
      intro before h
      obtain ⟨piece, hlower, -, -, hcontrol⟩ := lowerAfter_cons before c t
      rw [hlower, List.mem_append] at h
      rcases h with h | h
      · rw [hcontrol d h hd]
        exact List.mem_cons_self
      · exact List.mem_cons_of_mem _ (ih _ h)
  exact hafter [] h

theorem nul_of_mem_lower {t : Text} (h : '\x00' ∈ lower t) : '\x00' ∈ t :=
  mem_of_control_mem_lower (by decide) h

theorem isWordChar_head?_lower {c : Char} {t : Text} (hc : isWordChar c = true) :
    ∃ d ∈ (lower (c :: t)).head?, isWordChar d = true := by
  obtain ⟨piece, hlower, hne, hword, -⟩ := lowerAfter_cons [] c t
  obtain ⟨d, piece, rfl⟩ := List.exists_cons_of_ne_nil hne
  refine ⟨d, ?_, hword hc d List.mem_cons_self⟩
  rw [lower, hlower]
  rfl

theorem isWordChar_getLast?_lower {c : Char} {t : Text} (hc : isWordChar c = true) :
    ∃ d ∈ (lower (t ++ [c])).getLast?, isWordChar d = true := by
  have hafter : ∀ before, ∃ d ∈ (lowerAfter before (t ++ [c])).getLast?, isWordChar d = true := by
    induction t with
    | nil =>
      intro before
      obtain ⟨piece, hlower, hne, hword, -⟩ := lowerAfter_cons before c []
      refine ⟨piece.getLast hne, ?_, hword hc _ (List.getLast_mem hne)⟩
      rw [List.nil_append, hlower, lowerAfter, List.append_nil]
      exact List.getLast?_eq_some_getLast hne
    | cons e t ih =>
      intro before
      obtain ⟨d, hd, hword⟩ := ih (e :: before)
      obtain ⟨piece, hlower, -⟩ := lowerAfter_cons before e (t ++ [c])
      refine ⟨d, ?_, hword⟩
      rw [List.cons_append, hlower, List.getLast?_append, hd]
      rfl
  exact hafter []

/-! ### Letters outside ASCII -/

/-- The Kelvin sign is the only character outside ASCII that is moved into it. -/
def kelvinShift : Shift := ⟨0x212A, 0x212A, 1, -8383⟩

theorem loweringShifts_ascii : ∀ s ∈ loweringShifts, s.last < 0x80 ∨ 0x80 ≤ s.lowest ∨ s = kelvinShift := by
  have hall : (loweringShifts.all fun s =>
      Nat.blt s.last 0x80 || Nat.ble 0x80 s.lowest || s == kelvinShift) = true := by
    decide +kernel
  simpa [or_assoc] using hall

theorem ascii_of_lowerChar {c : Char} (h : ∀ d ∈ lowerChar c, d.toNat < 0x80 ∧ d ≠ 'k') :
    c.toNat < 0x80 := by
  refine Decidable.byContradiction fun hascii => ?_
  rw [lowerChar, if_neg hascii] at h
  split at h
  · exact absurd (h (Char.ofNat 0x307) (by decide)).1 (by decide)
  · rw [List.forall_mem_singleton] at h
    cases hshift : shifted loweringShifts c.toNat with
    | none =>
      rw [hshift] at h
      exact hascii h.1
    | some m =>
      rw [hshift] at h
      obtain ⟨hm, hk⟩ : (Char.ofNat m).toNat < 0x80 ∧ Char.ofNat m ≠ 'k' := h
      rw [(toNat_of_moved hshift).1] at hm
      obtain ⟨s, hs, hcovers, rfl⟩ := shifted_eq_some hshift
      obtain ⟨hlow, hhigh, -⟩ := Shift.moved_bounds hcovers (loweringShifts_avoid s hs).1
      rcases loweringShifts_ascii s hs with hlast | hlowest | rfl
      · simp only [Shift.covers, Bool.and_eq_true, decide_eq_true_eq] at hcovers
        omega
      · omega
      · have hkelvin : (c.toNat + kelvinShift.offset).toNat = 'k'.toNat := Nat.le_antisymm hhigh hlow
        rw [hkelvin] at hk
        exact hk rfl

/-- Where lowering leads to letters of ASCII other than this one, there was nothing else before. -/
theorem lowerAscii_eq_lower {t : Text} (h : ∀ d ∈ lower t, d.toNat < 0x80 ∧ d ≠ 'k') :
    lowerAscii t = lower t := by
  have hafter : ∀ before, (∀ d ∈ lowerAfter before t, d.toNat < 0x80 ∧ d ≠ 'k') →
      lowerAscii t = lowerAfter before t := by
    clear h
    induction t with
    | nil => exact fun _ _ => rfl
    | cons c t ih =>
      intro before h
      rw [lowerAfter, List.forall_mem_append] at h
      obtain ⟨hc, ht⟩ := h
      have hsigma : c.toNat ≠ 0x3A3 := by
        intro hsigma
        rw [if_pos hsigma] at hc
        split at hc
        · exact absurd (hc _ (List.mem_singleton_self _)).1 (by decide)
        · exact absurd (hc _ (List.mem_singleton_self _)).1 (by decide)
      rw [if_neg hsigma] at hc
      rw [lowerAfter, if_neg hsigma, ← ih _ ht, lowerChar, if_pos (ascii_of_lowerChar hc)]
      rfl
  exact hafter [] h

/-! ### Capital letters -/

theorem raisingShifts_land : ∀ s ∈ raisingShifts, s.lands = true ∧ 0x20 ≤ s.lowest := by
  have hall : (raisingShifts.all fun s => s.lands && Nat.ble 0x20 s.lowest) = true := by
    decide +kernel
  simpa using hall

theorem longUpperCases_visible : ∀ e ∈ longUpperCases, ∀ n ∈ e.2, 0x20 ≤ (Char.ofNat n).toNat := by
  have hall : (longUpperCases.all fun e => e.2.all fun n => Nat.ble 0x20 (Char.ofNat n).toNat) = true := by
    decide +kernel
  simpa using hall

theorem eq_of_control_mem_upperChar {c d : Char} (hd : d.toNat < 0x20) (h : d ∈ upperChar c) : d = c := by
  rw [upperChar] at h
  split at h
  · rename_i hascii
    have hall : ∀ c : Char, c.toNat < 0x80 → c.toUpper.toNat < 0x20 → c.toUpper = c :=
      forall_ascii (by decide +kernel)
    obtain rfl := List.mem_singleton.mp h
    exact hall c hascii hd
  · split at h
    · rename_i codes hlookup
      obtain ⟨n, hn, rfl⟩ := List.mem_map.mp h
      have hentry : (c.toNat, codes) ∈ longUpperCases := by
        obtain ⟨before, after, hcases, -⟩ := List.lookup_eq_some_iff.mp hlookup
        rw [hcases]
        exact List.mem_append_right _ List.mem_cons_self
      have hvisible := longUpperCases_visible _ hentry n hn
      omega
    · exact eq_of_mem_shifted raisingShifts_land hd h

end Dialogue.Text
