import Dialogue.Topic.Rank
import Mathlib.Data.List.Basic

/-! The order of entries is a total preorder, and ranking a pool is sorting it by that order. -/
namespace Dialogue.Entry

theorem compareLevels_swap (a b : Option Nat) : compareLevels a b = (compareLevels b a).swap := by
  cases a <;> cases b <;> simp only [compareLevels]
  · rfl
  · rfl
  · rfl
  · exact Std.OrientedOrd.eq_swap

instance : Std.OrientedCmp compareLevels where
  eq_swap := compareLevels_swap _ _

instance : Std.TransCmp compareLevels where
  isLE_trans {a b c} hab hbc := by
    cases a <;> cases b <;> cases c <;> simp only [compareLevels] at *
    all_goals first | exact Std.TransOrd.isLE_trans hab hbc | contradiction | rfl

/-- The keys one after another, each decisive only where all before it agree. -/
theorem order_eq_compareLex : order =
    compareLex (fun a b => compareLevels a.level b.level) (compareLex
      (fun a b => compare b.weight a.weight) (compareLex
        (fun a b => compare a.kind.place b.kind.place) (compareLex
          (fun a b => compare b.words a.words) (compareLex
            (fun a b => compare b.pattern.length a.pattern.length)
            (fun a b => compare a.pattern b.pattern))))) := rfl

variable {α β : Type}

theorem oriented_comap (cmp : β → β → Ordering) [Std.OrientedCmp cmp] (f : α → β) :
    Std.OrientedCmp fun a b => cmp (f a) (f b) where
  eq_swap {a b} := Std.OrientedCmp.eq_swap (a := f a) (b := f b)

theorem trans_comap (cmp : β → β → Ordering) [Std.TransCmp cmp] (f : α → β) :
    Std.TransCmp fun a b => cmp (f a) (f b) where
  toOrientedCmp := oriented_comap cmp f
  isLE_trans {_ b _} hab hbc := Std.TransCmp.isLE_trans (b := f b) hab hbc

instance : Std.TransCmp order := by
  rw [order_eq_compareLex]
  have levels := trans_comap compareLevels Entry.level
  have weights := trans_comap (fun m n : Nat => compare n m) Entry.weight
  have kinds := trans_comap (fun m n : Nat => compare m n) fun e : Entry => e.kind.place
  have words := trans_comap (fun m n : Nat => compare n m) Entry.words
  have lengths := trans_comap (fun m n : Nat => compare n m) fun e : Entry => e.pattern.length
  have texts := trans_comap (fun s t : Text => compare s t) Entry.pattern
  infer_instance

theorem order_swap (a b : Entry) : order a b = (order b a).swap := Std.OrientedCmp.eq_swap

theorem order_gt_iff {a b : Entry} : order a b = .gt ↔ order b a = .lt := by
  rw [order_swap, Ordering.swap_eq_gt]

theorem not_isLE_of_lt {a b : Entry} (h : order a b = .lt) : (order b a).isLE = false := by
  rw [order_gt_iff.mpr h]
  rfl

theorem isLE_of_not_lt {a b : Entry} (h : order a b ≠ .lt) : (order b a).isLE := by
  rw [order_swap]
  revert h
  cases order a b <;> simp

theorem isLE_total (a b : Entry) : (order a b).isLE || (order b a).isLE := by
  by_cases h : order a b = .lt
  · simp [h]
  · simp [isLE_of_not_lt h]

/-- Of entries with different patterns one is before the other. -/
theorem order_lt_of_ne {a b : Entry} (hne : a.pattern ≠ b.pattern) (hnot : order b a ≠ .lt) :
    order a b = .lt := by
  cases horder : order a b with
  | lt => rfl
  | gt => exact absurd (order_gt_iff.mp horder) hnot
  | eq =>
    simp only [order, Ordering.then_eq_eq] at horder
    exact absurd (Std.LawfulEqCmp.eq_of_compare horder.2.2.2.2.2) hne

/-- Levels decide before all other keys. -/
theorem order_of_levels {a b : Entry} (h : compareLevels a.level b.level ≠ .eq) :
    order a b = compareLevels a.level b.level := by
  rw [order]
  cases hc : compareLevels a.level b.level with
  | eq => exact absurd hc h
  | _ => rfl

/-- Entries from the best key to the worst; of equal keys the one found first stands first. -/
def arranged (es : List Entry) : List Entry := es.mergeSort fun a b => (order a b).isLE

theorem ranked_eq (pool : List Text) : ranked pool = (arranged (pool.map ofText)).map pattern := rfl

@[simp] theorem mem_arranged {es : List Entry} {e : Entry} : e ∈ arranged es ↔ e ∈ es :=
  List.mem_mergeSort

theorem mem_ranked {pool : List Text} {pattern : Text} :
    pattern ∈ ranked pool ↔ pattern ∈ pool.map fun t => (ofText t).pattern := by
  simp [ranked_eq]

theorem arranged_pairwise (es : List Entry) :
    (arranged es).Pairwise fun a b => (order a b).isLE :=
  List.pairwise_mergeSort (fun _ _ _ => Std.TransCmp.isLE_trans) isLE_total es

/-- What has a better key than an entry stands before it. -/
theorem mem_before_of_lt {es before after : List Entry} {a b : Entry}
    (hs : arranged es = before ++ b :: after) (ha : a ∈ es) (h : order a b = .lt) :
    a ∈ before := by
  have hp := arranged_pairwise es
  have hm : a ∈ before ++ b :: after := hs ▸ mem_arranged.mpr ha
  rw [hs, List.pairwise_append] at hp
  rcases List.mem_append.mp hm with hb | hb
  · exact hb
  · have hle : (order b a).isLE := by
      rcases List.mem_cons.mp hb with rfl | hb
      · exact Std.ReflCmp.isLE_rfl
      · exact (List.pairwise_cons.mp hp.2.1).1 a hb
    rw [not_isLE_of_lt h] at hle
    contradiction

theorem arranged_pair {a b : Entry} (h : order b a = .lt) : arranged [a, b] = [b, a] := by
  simp [arranged, List.mergeSort, List.MergeSort.Internal.splitInTwo, not_isLE_of_lt h]

end Dialogue.Entry
