import Dialogue.Proofs.Table
import Dialogue.Playbook
import Mathlib.Data.List.Induction
import Mathlib.Data.List.Nodup

/-! The index of the rules that look back: each pattern once, where it first appears, with the
positions of all rules that look back with it. -/
namespace Dialogue.Lookback

/-- The rule at a position looks back with the pattern. -/
def At (rules : List Rule) (position : Nat) (pattern : Text) : Prop :=
  ∃ r, rules[position]? = some r ∧ r.previous = some pattern

/-- The entries are those of some rules, none missing and none too many. -/
structure Indexes (rules : List Rule) (found : List Lookback) : Prop where
  patterns : found.map pattern = (rules.filterMap Rule.previous).eraseDups
  increasing : ∀ l ∈ found, l.positions.Pairwise (· < ·)
  mem_positions : ∀ l ∈ found, ∀ i, i ∈ l.positions ↔ At rules i l.pattern

variable {rules : List Rule} {found : List Lookback} {pattern : Text}

theorem At.lt_length {i : Nat} (h : At rules i pattern) : i < rules.length := by
  obtain ⟨r, hr, -⟩ := h
  exact (List.getElem?_eq_some_iff.mp hr).1

theorem At.unique {i : Nat} {other : Text} (h : At rules i pattern) (k : At rules i other) :
    pattern = other := by
  obtain ⟨r, hr, hp⟩ := h
  obtain ⟨r', hr', ho⟩ := k
  rw [hr, Option.some.injEq] at hr'
  rw [← hr', hp, Option.some.injEq] at ho
  exact ho

/-- A rule that comes last changes nothing before it. -/
theorem at_concat {r : Rule} {i : Nat} : At (rules ++ [r]) i pattern ↔
    At rules i pattern ∨ (i = rules.length ∧ r.previous = some pattern) := by
  constructor
  · rintro ⟨r', hr', hp⟩
    rcases Nat.lt_trichotomy i rules.length with hlt | heq | hgt
    · rw [List.getElem?_append_left hlt] at hr'
      exact Or.inl ⟨r', hr', hp⟩
    · rw [heq, List.getElem?_concat_length, Option.some.injEq] at hr'
      exact Or.inr ⟨heq, hr' ▸ hp⟩
    · rw [List.getElem?_eq_none (by simp; omega)] at hr'
      cases hr'
  · rintro (⟨r', hr', hp⟩ | ⟨rfl, hp⟩)
    · exact ⟨r', by rw [List.getElem?_append_left (List.getElem?_eq_some_iff.mp hr').1, hr'], hp⟩
    · exact ⟨r, List.getElem?_concat_length, hp⟩

theorem mem_filterMap_previous : pattern ∈ rules.filterMap Rule.previous ↔
    ∃ i, At rules i pattern := by
  rw [List.mem_filterMap]
  constructor
  · rintro ⟨r, hr, hp⟩
    obtain ⟨i, hi⟩ := List.mem_iff_getElem?.mp hr
    exact ⟨i, r, hi, hp⟩
  · rintro ⟨i, r, hi, hp⟩
    exact ⟨r, List.mem_of_getElem? hi, hp⟩

theorem eraseDups_concat (names : List Text) (name : Text) :
    (names ++ [name]).eraseDups = Topic.addName names.eraseDups name := by
  rw [List.eraseDups_append]
  by_cases h : name ∈ names <;>
    simp [Topic.addName, List.removeAll, List.eraseDups_cons, h]

theorem nodup_eraseDups (names : List Text) : names.eraseDups.Nodup := by
  induction names using List.reverseRecOn with
  | nil => exact List.nodup_nil
  | append_singleton names name ih =>
    rw [eraseDups_concat]
    exact Topic.nodup_addName ih name

theorem map_pattern_add (pattern : Text) (position : Nat) (found : List Lookback) :
    (add pattern position found).map Lookback.pattern =
      Topic.addName (found.map Lookback.pattern) pattern := by
  induction found with
  | nil => rfl
  | cons l found ih =>
    by_cases hl : l.pattern = pattern
    · simp [add, hl, Topic.addName]
    · have hne : pattern ≠ l.pattern := Ne.symm hl
      simp only [Topic.addName] at ih
      simp only [add, hl, if_false, List.map_cons, ih, Topic.addName, List.mem_cons, hne, false_or]
      split <;> rfl

/-- Only the pattern's own entry changes, or is made. -/
theorem mem_add {pattern : Text} {position : Nat} (h : (found.map Lookback.pattern).Nodup)
    {l : Lookback} (hl : l ∈ add pattern position found) :
    (l ∈ found ∧ l.pattern ≠ pattern) ∨
      (∃ old ∈ found, old.pattern = pattern ∧ l = ⟨pattern, old.positions ++ [position]⟩) ∨
      (pattern ∉ found.map Lookback.pattern ∧ l = ⟨pattern, [position]⟩) := by
  induction found with
  | nil =>
    rw [add, List.mem_singleton] at hl
    exact Or.inr (Or.inr ⟨List.not_mem_nil, hl⟩)
  | cons first found ih =>
    rw [List.map_cons, List.nodup_cons] at h
    by_cases hfirst : first.pattern = pattern
    · rw [add, if_pos hfirst, List.mem_cons] at hl
      rcases hl with rfl | hl
      · exact Or.inr (Or.inl ⟨first, List.mem_cons_self, hfirst, by rw [hfirst]⟩)
      · refine Or.inl ⟨List.mem_cons_of_mem _ hl, fun heq => h.1 ?_⟩
        rw [hfirst, ← heq]
        exact List.mem_map_of_mem hl
    · rw [add, if_neg hfirst, List.mem_cons] at hl
      rcases hl with rfl | hl
      · exact Or.inl ⟨List.mem_cons_self, hfirst⟩
      · rcases ih h.2 hl with ⟨hmem, hne⟩ | ⟨old, hmem, heq, hl⟩ | ⟨hnew, hl⟩
        · exact Or.inl ⟨List.mem_cons_of_mem _ hmem, hne⟩
        · exact Or.inr (Or.inl ⟨old, List.mem_cons_of_mem _ hmem, heq, hl⟩)
        · refine Or.inr (Or.inr ⟨?_, hl⟩)
          rw [List.map_cons, List.mem_cons]
          exact fun hor => hor.elim (fun heq => hfirst heq.symm) hnew

namespace Indexes

theorem nodup (h : Indexes rules found) : (found.map Lookback.pattern).Nodup := by
  rw [h.patterns]
  exact nodup_eraseDups _

theorem skip (h : Indexes rules found) {r : Rule} (hr : r.previous = none) :
    Indexes (rules ++ [r]) found where
  patterns := by simp [h.patterns, hr]
  increasing := h.increasing
  mem_positions l hl i := by
    rw [h.mem_positions l hl i, at_concat, hr]
    simp

/-- A rule that looks back adds its position, which is greater than all before it. -/
theorem add (h : Indexes rules found) {r : Rule} (hr : r.previous = some pattern) :
    Indexes (rules ++ [r]) (Lookback.add pattern rules.length found) where
  patterns := by
    rw [map_pattern_add, h.patterns, List.filterMap_append, ← eraseDups_concat]
    simp [hr]
  increasing l hl := by
    rcases mem_add h.nodup hl with ⟨hmem, -⟩ | ⟨old, hmem, heq, rfl⟩ | ⟨-, rfl⟩
    · exact h.increasing l hmem
    · rw [List.pairwise_append]
      refine ⟨h.increasing old hmem, List.pairwise_singleton _ _, fun i hi j hj => ?_⟩
      rw [List.mem_singleton.mp hj]
      exact ((h.mem_positions old hmem i).mp hi).lt_length
    · exact List.pairwise_singleton _ _
  mem_positions l hl i := by
    rw [at_concat, hr, Option.some.injEq]
    rcases mem_add h.nodup hl with ⟨hmem, hne⟩ | ⟨old, hmem, heq, rfl⟩ | ⟨hnew, rfl⟩
    · rw [h.mem_positions l hmem i]
      exact ⟨Or.inl, fun hor => hor.elim id fun heq => absurd heq.2.symm hne⟩
    · rw [List.mem_append, List.mem_singleton, h.mem_positions old hmem i, heq]
      simp
    · -- No rule so far looks back with the pattern, or it would have an entry.
      have hnone : ¬ At rules i pattern := by
        intro hi
        rw [h.patterns, List.mem_eraseDups, mem_filterMap_previous] at hnew
        exact hnew ⟨i, hi⟩
      simp [hnone]

theorem indexFrom (h : Indexes rules found) (rest : List Rule) :
    Indexes (rules ++ rest) (Lookback.indexFrom rules.length rest found) := by
  induction rest generalizing rules found with
  | nil =>
    rw [List.append_nil]
    exact h
  | cons r rest ih =>
    have hlen : rules.length + 1 = (rules ++ [r]).length := by simp
    rw [Lookback.indexFrom, hlen, List.append_cons]
    cases hr : r.previous with
    | none => exact ih (h.skip hr)
    | some pattern => exact ih (h.add hr)

theorem positions_ne_nil (h : Indexes rules found) {l : Lookback} (hl : l ∈ found) :
    l.positions ≠ [] := by
  have hp : l.pattern ∈ rules.filterMap Rule.previous := by
    rw [← List.mem_eraseDups, ← h.patterns]
    exact List.mem_map_of_mem hl
  obtain ⟨i, hi⟩ := mem_filterMap_previous.mp hp
  exact List.ne_nil_of_mem ((h.mem_positions l hl i).mpr hi)

/-- The entry in which the position of a rule that looks back stands. -/
theorem existsUnique (h : Indexes rules found) {i : Nat} (hi : At rules i pattern) :
    ∃! l, l ∈ found ∧ i ∈ l.positions := by
  have hp : pattern ∈ found.map Lookback.pattern := by
    rw [h.patterns, List.mem_eraseDups]
    exact mem_filterMap_previous.mpr ⟨i, hi⟩
  obtain ⟨l, hl, rfl⟩ := List.mem_map.mp hp
  refine ⟨l, ⟨hl, (h.mem_positions l hl i).mpr hi⟩, ?_⟩
  rintro other ⟨hother, hio⟩
  exact List.inj_on_of_nodup_map h.nodup hother hl
    (((h.mem_positions other hother i).mp hio).unique hi)

end Indexes

theorem indexes_index (t : Topic) : Indexes t.rules (index t) :=
  have hnone : Indexes [] [] := ⟨rfl, by simp, by simp⟩
  hnone.indexFrom t.rules

theorem index_eq_nil {t : Topic} : index t = [] ↔ ∀ r ∈ t.rules, r.previous = none := by
  rw [← List.map_eq_nil_iff, (indexes_index t).patterns]
  constructor
  · intro h r hr
    by_contra hp
    obtain ⟨pattern, hp⟩ := Option.ne_none_iff_exists'.mp hp
    have hmem := List.mem_eraseDups.mpr (List.mem_filterMap.mpr ⟨r, hr, hp⟩)
    rw [h] at hmem
    cases hmem
  · intro h
    rw [List.filterMap_eq_nil_iff.mpr h]
    rfl

end Dialogue.Lookback
