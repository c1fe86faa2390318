import Dialogue.Topic.Basic
import Mathlib.Data.List.Basic
import Mathlib.Data.List.Perm.Basic

/-! The keys of a table: each stands there once, where it first arrived. -/
namespace Dialogue

namespace Table

variable {β : Type} {t : Table β}

theorem find?_alter (t : Table β) (key : Text) (absent : β) (f : β → β) (other : Text) :
    (t.alter key absent f).find? other =
      if other = key then some (f ((t.find? key).getD absent)) else t.find? other := by
  split
  · subst other
    exact find?_alter_self t key absent f
  · exact find?_alter_of_ne t absent f ‹_›

theorem mem_keys {key : Text} : key ∈ t.keys ↔ (t.find? key).isSome := by
  simp [keys, find?, List.lookup_eq_findSome?, List.findSome?_isSome_iff]

theorem find?_eq_none {key : Text} : t.find? key = none ↔ key ∉ t.keys := by
  rw [mem_keys, Option.not_isSome_iff_eq_none]

/-- A key that is new comes last. -/
theorem keys_alter (t : Table β) (key : Text) (absent : β) (f : β → β) :
    (t.alter key absent f).keys = Topic.addName t.keys key := by
  obtain ⟨entries⟩ := t
  show (alterEntry key absent f entries).map Prod.fst = Topic.addName (entries.map Prod.fst) key
  induction entries with
  | nil => rfl
  | cons e entries ih =>
    obtain ⟨k, v⟩ := e
    by_cases hk : k = key
    · simp [alterEntry, Topic.addName, hk]
    · have hne : key ≠ k := Ne.symm hk
      simp only [Topic.addName] at ih
      simp only [alterEntry, hk, if_false, List.map_cons, ih, Topic.addName, List.mem_cons, hne,
        false_or]
      split <;> rfl

theorem mem_entries_of_find? {key : Text} {v : β} (h : t.find? key = some v) : (key, v) ∈ t.entries := by
  obtain ⟨before, after, hentries, -⟩ := List.lookup_eq_some_iff.mp h
  rw [hentries]
  exact List.mem_append_right _ List.mem_cons_self

theorem alterEntry_append {entries : List (Text × β)} {key : Text}
    (h : key ∉ entries.map Prod.fst) (absent : β) (f : β → β) (rest : List (Text × β)) :
    alterEntry key absent f (entries ++ rest) = entries ++ alterEntry key absent f rest := by
  induction entries with
  | nil => rfl
  | cons e entries ih =>
    rw [List.map_cons, List.mem_cons, not_or] at h
    rw [List.cons_append, alterEntry, if_neg (Ne.symm h.1), ih h.2]
    rfl

/-- What is new comes last. -/
theorem entries_alter_of_not_mem {key : Text} (h : key ∉ t.keys) (absent : β) (f : β → β) :
    (t.alter key absent f).entries = t.entries ++ [(key, f absent)] := by
  have hnew := alterEntry_append h absent f []
  rw [List.append_nil] at hnew
  exact hnew

/-- Entries may be dropped and changed one by one, since no two have the same key. -/
theorem lookup_filterMap {γ : Type} {entries : List (Text × β)} (g : β → Option γ)
    (h : (entries.map Prod.fst).Nodup) (key : Text) :
    (entries.filterMap fun e => (g e.2).map fun v => (e.1, v)).lookup key =
      (entries.lookup key).bind g := by
  induction entries with
  | nil => rfl
  | cons e entries ih =>
    obtain ⟨k, v⟩ := e
    rw [List.map_cons, List.nodup_cons] at h
    by_cases hk : key = k
    · subst hk
      have habsent : entries.lookup key = none := by
        have hnone : (⟨entries⟩ : Table β).find? key = none := find?_eq_none.mpr h.1
        exact hnone
      cases hv : g v with
      | none => simp [hv, ih h.2, habsent]
      | some w => simp [hv]
    · have hne : (key == k) = false := by simpa using hk
      cases hv : g v with
      | none => simp [List.lookup_cons, hv, hne, ih h.2]
      | some w => simp [List.lookup_cons, hv, hne, ih h.2]

end Table

namespace Topic

theorem mem_addName {names : List Text} {name x : Text} :
    x ∈ addName names name ↔ x ∈ names ∨ x = name := by
  unfold addName
  split
  · rename_i hold
    exact ⟨Or.inl, fun h => h.elim id fun heq => heq ▸ hold⟩
  · rw [List.mem_append, List.mem_singleton]

theorem nodup_addName {names : List Text} (h : names.Nodup) (name : Text) :
    (addName names name).Nodup := by
  unfold addName
  split
  · exact h
  · rename_i hnew
    rw [List.nodup_append]
    exact ⟨h, List.pairwise_singleton _ _, fun a ha b hb hab =>
      hnew (List.mem_singleton.mp hb ▸ hab ▸ ha)⟩

theorem addName_perm {names names' : List Text} (h : names.Perm names') (name : Text) :
    (addName names name).Perm (addName names' name) := by
  unfold addName
  simp only [h.mem_iff]
  split
  · exact h
  · exact h.append_right _

theorem addName_comm (names : List Text) (a b : Text) :
    (addName (addName names a) b).Perm (addName (addName names b) a) := by
  by_cases hab : a = b
  · rw [hab]
  · have hba : ¬ b = a := Ne.symm hab
    by_cases ha : a ∈ names <;> by_cases hb : b ∈ names <;>
      simp [addName, ha, hb, hab, hba, List.perm_append_left_iff, List.Perm.swap]

end Topic

end Dialogue
