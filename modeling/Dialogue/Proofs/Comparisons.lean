import Dialogue.Condition
import Mathlib.Logic.ExistsUnique

/-! How the comparisons go together. A text counts as the integer that it spells, or else as itself. Texts
are equal if they count as the same, and only integers are ordered. -/
namespace Dialogue.Comparison

open Text

/-- What a text counts as where it is compared. -/
inductive Worth where
  | integer (n : Int)
  | text (t : Text)
  deriving DecidableEq, Repr

def worth (t : Text) : Worth :=
  match Numeral.integer? (trim t) with
  | some n => .integer n
  | none => .text t

/-- What a comparison says of two texts, by what they count as. -/
def Relates : Comparison → Worth → Worth → Prop
  | .eq, v, w => v = w
  | .ne, v, w => v ≠ w
  | .lt, .integer m, .integer n => m < n
  | .le, .integer m, .integer n => m ≤ n
  | .gt, .integer m, .integer n => n < m
  | .ge, .integer m, .integer n => n ≤ m
  | _, _, _ => False

def IsInteger (t : Text) : Prop := ∃ n, Numeral.integer? (trim t) = some n

section Worth

variable {s t : Text} {n : Int}

theorem worth_of_some (h : Numeral.integer? (trim t) = some n) : worth t = .integer n := by
  simp [worth, h]

theorem worth_of_none (h : Numeral.integer? (trim t) = none) : worth t = .text t := by
  simp [worth, h]

theorem isInteger_of_worth (h : worth t = .integer n) : IsInteger t := by
  unfold worth at h
  split at h
  · rename_i m hm
    exact ⟨m, hm⟩
  · cases h

theorem equal_iff (s t : Text) : equal s t = true ↔ worth s = worth t := by
  cases hs : Numeral.integer? (trim s) with
  | none =>
    have hequal : equal s t = decide (s = t) := by simp [equal, integers?, hs]
    cases ht : Numeral.integer? (trim t) with
    | none => simp [hequal, worth_of_none hs, worth_of_none ht]
    | some n =>
      have hne : s ≠ t := by
        rintro rfl
        simp [hs] at ht
      simp [hequal, worth_of_none hs, worth_of_some ht, hne]
  | some m =>
    cases ht : Numeral.integer? (trim t) with
    | none =>
      have hne : s ≠ t := by
        rintro rfl
        simp [hs] at ht
      simp [equal, integers?, hs, ht, worth_of_some hs, worth_of_none ht, hne]
    | some n =>
      have hsame : s = t → m = n := by
        rintro rfl
        simpa [hs] using ht
      simp only [equal, integers?, hs, ht, worth_of_some hs, worth_of_some ht]
      simpa using hsame

/-- Nothing of two texts is compared but what they count as. -/
theorem holds_iff (c : Comparison) (s t : Text) : c.holds s t = true ↔ c.Relates (worth s) (worth t) := by
  cases c
  case eq => exact equal_iff s t
  case ne =>
    have hnot := not_congr (equal_iff s t)
    simpa [holds, Relates] using hnot
  -- Only two integers are ordered.
  all_goals
    cases hs : Numeral.integer? (trim s) <;> cases ht : Numeral.integer? (trim t) <;>
      simp [holds, Relates, integers?, worth, hs, ht]

theorem holds_congr {s' t' : Text} (hs : worth s = worth s') (ht : worth t = worth t') (c : Comparison) :
    c.holds s t = c.holds s' t' := by
  have hiff : c.holds s t = true ↔ c.holds s' t' = true := by rw [holds_iff, holds_iff, hs, ht]
  exact Bool.eq_iff_iff.mpr hiff

theorem holds_integers {m : Int} (hs : Numeral.integer? (trim s) = some m)
    (ht : Numeral.integer? (trim t) = some n) (c : Comparison) :
    c.holds s t = true ↔ c.Relates (.integer m) (.integer n) := by
  rw [holds_iff, worth_of_some hs, worth_of_some ht]

end Worth

/-! ### Which texts are ordered -/

section Order

variable {s t : Text} {c d : Comparison} {m n : Int}

theorem relates_unique (hc : c ∈ [lt, eq, gt]) (hd : d ∈ [lt, eq, gt])
    (h : Relates c (.integer m) (.integer n)) (k : Relates d (.integer m) (.integer n)) : c = d := by
  simp only [List.mem_cons, List.not_mem_nil, or_false] at hc hd
  rcases hc with rfl | rfl | rfl <;> rcases hd with rfl | rfl | rfl <;> simp [Relates] at h k ⊢ <;> omega

theorem relates_trichotomy (m n : Int) :
    ∃! c : Comparison, c ∈ [lt, eq, gt] ∧ c.Relates (.integer m) (.integer n) := by
  have hsome : ∃ c : Comparison, c ∈ [lt, eq, gt] ∧ c.Relates (.integer m) (.integer n) := by
    rcases Int.lt_trichotomy m n with h | h | h
    · exact ⟨lt, by simp, h⟩
    · exact ⟨eq, by simp, congrArg Worth.integer h⟩
    · exact ⟨gt, by simp, h⟩
  obtain ⟨c, hc, hrelates⟩ := hsome
  refine ⟨c, ⟨hc, hrelates⟩, ?_⟩
  rintro d ⟨hd, hother⟩
  exact relates_unique hd hc hother hrelates

theorem Relates.trans {u v w : Worth} (h : Relates lt u v) (k : Relates lt v w) : Relates lt u w := by
  cases u <;> cases v <;> cases w <;> simp [Relates] at *
  omega

theorem isInteger_of_relates (hc : c ∈ [lt, le, gt, ge]) (h : c.Relates (worth s) (worth t)) :
    IsInteger s ∧ IsInteger t := by
  simp only [List.mem_cons, List.not_mem_nil, or_false] at hc
  cases hs : worth s with
  | text _ =>
    rw [hs] at h
    rcases hc with rfl | rfl | rfl | rfl <;> simp [Relates] at h
  | integer m =>
    cases ht : worth t with
    | text _ =>
      rw [hs, ht] at h
      rcases hc with rfl | rfl | rfl | rfl <;> simp [Relates] at h
    | integer n => exact ⟨isInteger_of_worth hs, isInteger_of_worth ht⟩

end Order

/-! ### All comparisons -/

/-- How the comparisons go together, whatever the texts are. -/
structure Coherent : Prop where
  equivalence : Equivalence fun s t => eq.holds s t = true
  negation : ∀ s t, ne.holds s t = !eq.holds s t
  ordered : ∀ s t m n, Numeral.integer? (trim s) = some m → Numeral.integer? (trim t) = some n →
    (lt.holds s t = true ↔ m < n) ∧ (eq.holds s t = true ↔ m = n) ∧ (gt.holds s t = true ↔ n < m)
  trichotomy : ∀ s t, IsInteger s → IsInteger t →
    ∃! c : Comparison, c ∈ [lt, eq, gt] ∧ c.holds s t = true
  le_iff : ∀ s t, IsInteger s → IsInteger t →
    (le.holds s t = true ↔ lt.holds s t = true ∨ eq.holds s t = true)
  ge_iff : ∀ s t, IsInteger s → IsInteger t →
    (ge.holds s t = true ↔ gt.holds s t = true ∨ eq.holds s t = true)
  lt_trans : ∀ s t u, lt.holds s t = true → lt.holds t u = true → lt.holds s u = true
  /-- Equal texts can take each other's place in every comparison. -/
  congr : ∀ (c : Comparison) (s s' t t' : Text), eq.holds s s' = true → eq.holds t t' = true →
    c.holds s t = c.holds s' t'
  unordered : ∀ s t, ¬ (IsInteger s ∧ IsInteger t) →
    ∀ c : Comparison, c ∈ [lt, le, gt, ge] → c.holds s t = false

theorem coherent : Coherent where
  equivalence := by
    simp only [holds, equal_iff]
    exact ⟨fun _ => rfl, Eq.symm, Eq.trans⟩
  negation _ _ := rfl
  ordered s t m n hs ht := by
    simp [holds_integers hs ht, Relates]
  trichotomy s t := by
    rintro ⟨m, hs⟩ ⟨n, ht⟩
    simp only [holds_integers hs ht]
    exact relates_trichotomy m n
  le_iff s t := by
    rintro ⟨m, hs⟩ ⟨n, ht⟩
    simp only [holds_integers hs ht, Relates, Worth.integer.injEq]
    omega
  ge_iff s t := by
    rintro ⟨m, hs⟩ ⟨n, ht⟩
    simp only [holds_integers hs ht, Relates, Worth.integer.injEq]
    omega
  lt_trans s t u := by
    simp only [holds_iff]
    exact Relates.trans
  congr c s s' t t' hs ht :=
    holds_congr ((equal_iff s s').mp hs) ((equal_iff t t').mp ht) c
  unordered s t h c hc := by
    rw [Bool.eq_false_iff]
    intro hholds
    exact h (isInteger_of_relates hc ((holds_iff c s t).mp hholds))

/-- A sign, zeros in front and white space around it make no difference to a number, but they do where a number
does not fit. -/
example : eq.holds " +5\n" "05" = true ∧ lt.holds "9" "10" = true ∧ lt.holds "b" "c" = false ∧
    eq.holds "9223372036854775808" "+9223372036854775808" = false := by
  decide

end Dialogue.Comparison
