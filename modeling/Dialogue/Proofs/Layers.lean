import Dialogue.Proofs.LoadOrder
import Mathlib.Data.Char
import Mathlib.Data.List.Dedup
import Mathlib.Data.List.Lex
import Mathlib.Data.Prod.Lex
import Mathlib.Order.WithBot

/-! Ranking by one key. Entries can be laid out level by level, in each level weight by weight and in
each weight kind by kind, so that they need to be compared only within a kind; what comes out is
sorted by all of these at once, and a pool has only one ranking that is. -/
namespace Dialogue.Entry

/-! ### The key -/

/-- Entries without a level stand after every level. -/
def rankLevel (e : Entry) : WithTop ℕ :=
  match e.level with
  | some level => WithTop.some level
  | none => ⊤

abbrev Key := WithTop ℕ ×ₗ ℕᵒᵈ ×ₗ ℕ ×ₗ ℕᵒᵈ ×ₗ ℕᵒᵈ ×ₗ Text

/-- The level, the weight from the highest on, the kind, words and characters from the most on, and
the text. -/
def key (e : Entry) : Key :=
  toLex (e.rankLevel, toLex (OrderDual.toDual e.weight, toLex (e.kind.place,
    toLex (OrderDual.toDual e.words, toLex (OrderDual.toDual e.pattern.length, e.pattern)))))

theorem compare_text_eq_lt {s t : Text} : compare s t = .lt ↔ s < t := by
  induction s generalizing t with
  | nil => cases t <;> simp
  | cons c s ih =>
    cases t with
    | nil => simp
    | cons d t =>
      have hchar : compare c d = .lt ↔ c < d := compareOfLessAndEq_eq_lt
      rw [List.cons_lt_cons_iff, ← ih, List.compare_eq_compareLex, List.compareLex_cons_cons,
        Ordering.then_eq_lt, hchar, Std.compare_eq_iff_eq]

theorem isLE_compare_text {s t : Text} : (compare s t).isLE ↔ s ≤ t := by
  rw [← not_lt, ← compare_text_eq_lt, ← Std.OrientedCmp.gt_iff_lt, Ordering.isLE_iff_ne_gt]

theorem compareLevels_eq_lt {a b : Entry} :
    compareLevels a.level b.level = .lt ↔ a.rankLevel < b.rankLevel := by
  rw [rankLevel, rankLevel]
  cases a.level <;> cases b.level <;> simp [compareLevels, Nat.compare_eq_lt]

theorem compareLevels_eq_eq_iff {a b : Entry} :
    compareLevels a.level b.level = .eq ↔ a.rankLevel = b.rankLevel := by
  rw [rankLevel, rankLevel]
  cases a.level <;> cases b.level <;> simp [compareLevels]

private theorem isLE_then {κ β : Type} [LinearOrder κ] [LE β] {o p : Ordering} {x y : κ} {u v : β}
    (hlt : o = .lt ↔ x < y) (heq : o = .eq ↔ x = y) (hle : p.isLE ↔ u ≤ v) :
    (o.then p).isLE ↔ toLex (x, u) ≤ toLex (y, v) := by
  rw [Prod.Lex.toLex_le_toLex, Ordering.isLE_then_iff_or, hlt, heq, hle]

private theorem isLE_then_descending {β : Type} [LE β] {m n : ℕ} {p : Ordering} {u v : β}
    (hle : p.isLE ↔ u ≤ v) : ((compare n m).then p).isLE ↔
      toLex (OrderDual.toDual m, u) ≤ toLex (OrderDual.toDual n, v) := by
  refine isLE_then (Nat.compare_eq_lt.trans OrderDual.toDual_lt_toDual.symm) ?_ hle
  exact Nat.compare_eq_eq.trans (eq_comm.trans OrderDual.toDual_inj.symm)

/-- To compare entries is to compare their keys. -/
theorem isLE_order_iff {a b : Entry} : (order a b).isLE ↔ a.key ≤ b.key := by
  refine isLE_then compareLevels_eq_lt compareLevels_eq_eq_iff (isLE_then_descending ?_)
  refine isLE_then Nat.compare_eq_lt Nat.compare_eq_eq (isLE_then_descending ?_)
  exact isLE_then_descending isLE_compare_text

theorem pattern_of_key_eq {a b : Entry} (h : a.key = b.key) : a.pattern = b.pattern :=
  congrArg (fun k : Key => k.2.2.2.2.2) h

/-! ### Layers -/

section Layer

variable {κ : Type} [DecidableEq κ] (cmp : κ → κ → Ordering) (f : Entry → κ)
  (arrange : κ → List Entry → List Entry)

/-- Puts together what has the same value of `f`, in the order of the values, and arranges what
belongs to each of them. -/
def layer (es : List Entry) : List Entry :=
  ((es.map f).dedup.mergeSort fun k l => (cmp k l).isLE).flatMap fun k =>
    arrange k (es.filter (f · = k))

variable {cmp f arrange}

/-- The parts of a list for different values make up the part for all of these. -/
theorem flatMap_filter_perm {keys : List κ} (h : keys.Nodup) (es : List Entry) :
    (keys.flatMap fun k => es.filter (f · = k)).Perm (es.filter (f · ∈ keys)) := by
  induction keys with
  | nil => simp
  | cons k keys ih =>
    rw [List.nodup_cons] at h
    have hfirst : es.filter (f · = k) = (es.filter (f · ∈ k :: keys)).filter (f · = k) := by
      rw [List.filter_filter]
      refine List.filter_congr fun e _ => ?_
      by_cases he : f e = k <;> simp [he]
    have hothers : es.filter (f · ∈ keys) =
        (es.filter (f · ∈ k :: keys)).filter fun e => !decide (f e = k) := by
      rw [List.filter_filter]
      refine List.filter_congr fun e _ => ?_
      by_cases he : f e = k <;> simp [he, h.1]
    rw [List.flatMap_cons]
    refine ((ih h.2).append_left _).trans ?_
    rw [hfirst, hothers]
    exact List.filter_append_perm _ _

/-- Nothing is lost in a layer, and nothing is there twice. -/
theorem layer_perm (harrange : ∀ k es, (arrange k es).Perm es) (es : List Entry) :
    (layer cmp f arrange es).Perm es := by
  have hall : es.filter (f · ∈ (es.map f).dedup) = es := by
    refine List.filter_eq_self.mpr fun e he => ?_
    exact decide_eq_true (List.mem_dedup.mpr (List.mem_map_of_mem he))
  have hparts := flatMap_filter_perm (f := f) (List.nodup_dedup (es.map f)) es
  rw [hall] at hparts
  refine ((List.mergeSort_perm _ _).flatMap_right _).trans (.trans ?_ hparts)
  exact List.Perm.flatMap_left _ fun k _ => harrange k _

omit [DecidableEq κ] in
private theorem isLE_or_isLE [Std.OrientedCmp cmp] (k l : κ) :
    (cmp k l).isLE || (cmp l k).isLE := by
  have hswap : cmp l k = (cmp k l).swap := Std.OrientedCmp.eq_swap
  rw [hswap]
  cases cmp k l <;> rfl

/-- What each value has is in order, and so the whole is by the values first. -/
theorem layer_pairwise (cmp : κ → κ → Ordering) [Std.TransCmp cmp] [Std.LawfulEqCmp cmp]
    {rest : Entry → Entry → Ordering}
    (harrange : ∀ k es, (arrange k es).Perm es)
    (hrest : ∀ k es, (∀ e ∈ es, f e = k) → (arrange k es).Pairwise fun a b => (rest a b).isLE)
    (es : List Entry) : (layer cmp f arrange es).Pairwise fun a b =>
      ((cmp (f a) (f b)).then (rest a b)).isLE := by
  have hvalue : ∀ k, ∀ e ∈ arrange k (es.filter (f · = k)), f e = k := fun k e he => by
    simpa using (List.mem_filter.mp ((harrange k _).mem_iff.mp he)).2
  rw [layer, List.pairwise_flatMap]
  constructor
  · intro k _
    have hpart := hrest k (es.filter (f · = k)) fun e he => by simpa using (List.mem_filter.mp he).2
    refine hpart.imp_of_mem fun {a b} ha hb hab => ?_
    have hself : cmp k k = .eq := Std.ReflCmp.compare_self
    rw [hvalue k a ha, hvalue k b hb, hself]
    exact hab
  · have hsorted : ((es.map f).dedup.mergeSort fun k l => (cmp k l).isLE).Pairwise
        fun k l => (cmp k l).isLE :=
      List.pairwise_mergeSort (fun _ _ _ => Std.TransCmp.isLE_trans) isLE_or_isLE _
    have hdistinct : ((es.map f).dedup.mergeSort fun k l => (cmp k l).isLE).Nodup :=
      (List.mergeSort_perm _ _).nodup_iff.mpr (List.nodup_dedup _)
    refine (hsorted.and hdistinct).imp fun {k l} hkl a ha b hb => ?_
    have hlt : cmp k l = .lt := (Ordering.isLE_iff_eq_lt_or_eq_eq.mp hkl.1).resolve_right
      fun heq => hkl.2 (Std.LawfulEqCmp.eq_of_compare heq)
    rw [hvalue k a ha, hvalue l b hb, Ordering.isLE_then_iff_or]
    exact Or.inl hlt

end Layer

/-! ### Level, weight, kind -/

def byLength (a b : Entry) : Ordering :=
  (compare b.pattern.length a.pattern.length).then (compare a.pattern b.pattern)

def byWords (a b : Entry) : Ordering := (compare b.words a.words).then (byLength a b)

/-- Wildcards that stand alone have no words to compare. -/
def inKind : Kind → List Entry → List Entry
  | .onlyLetters, es | .onlyNumber, es | .onlyAnything, es =>
    es.mergeSort fun a b => (byLength a b).isLE
  | _, es => es.mergeSort fun a b => (byWords a b).isLE

def inWeight : List Entry → List Entry := layer (compareOn Kind.place) kind inKind

/-- The highest weight comes first. -/
def inLevel : List Entry → List Entry :=
  layer (fun v w : Nat => compare w v) weight fun _ => inWeight

/-- What has no level is the last layer. -/
def layered : List Entry → List Entry := layer compareLevels level fun _ => inLevel

instance : Std.TransCmp byLength := by
  have hlex : byLength = compareLex (fun a b => compare b.pattern.length a.pattern.length)
      (fun a b => compare a.pattern b.pattern) := rfl
  have lengths := trans_comap (fun m n : Nat => compare n m) fun e : Entry => e.pattern.length
  have texts := trans_comap (fun s t : Text => compare s t) Entry.pattern
  rw [hlex]
  infer_instance

instance : Std.TransCmp byWords := by
  have hlex : byWords = compareLex (fun a b => compare b.words a.words) byLength := rfl
  have words := trans_comap (fun m n : Nat => compare n m) Entry.words
  rw [hlex]
  infer_instance

instance : Std.LawfulEqCmp (compareOn Kind.place) where
  eq_of_compare {k l} h := by
    have hplace : k.place = l.place := Nat.compare_eq_eq.mp h
    revert hplace
    cases k <;> cases l <;> decide

instance : Std.LawfulEqCmp compareLevels where
  eq_of_compare := compareLevels_eq_eq

theorem words_of_kind {e : Entry}
    (h : e.kind = .onlyLetters ∨ e.kind = .onlyNumber ∨ e.kind = .onlyAnything) : e.words = 0 := by
  unfold kind at h
  grind

theorem sorted_pairwise (cmp : Entry → Entry → Ordering) [Std.TransCmp cmp] (es : List Entry) :
    (es.mergeSort fun a b => (cmp a b).isLE).Pairwise fun a b => (cmp a b).isLE :=
  List.pairwise_mergeSort (fun _ _ _ => Std.TransCmp.isLE_trans) isLE_or_isLE es

theorem inKind_perm (k : Kind) (es : List Entry) : (inKind k es).Perm es := by
  cases k <;> exact List.mergeSort_perm _ _

/-- The lengths alone tell the order of wildcards that stand alone. -/
theorem inKind_pairwise (k : Kind) (es : List Entry) (h : ∀ e ∈ es, e.kind = k) :
    (inKind k es).Pairwise fun a b => (byWords a b).isLE := by
  have hlone : (k = .onlyLetters ∨ k = .onlyNumber ∨ k = .onlyAnything) →
      (es.mergeSort fun a b => (byLength a b).isLE).Pairwise fun a b => (byWords a b).isLE := by
    intro hk
    have hwords : ∀ e ∈ es.mergeSort fun a b => (byLength a b).isLE, e.words = 0 := fun e he => by
      rw [← h e (List.mem_mergeSort.mp he)] at hk
      exact words_of_kind hk
    refine (sorted_pairwise byLength es).imp_of_mem fun {a b} ha hb hab => ?_
    rw [byWords, hwords a ha, hwords b hb]
    exact hab
  cases k with
  | onlyLetters => exact hlone (Or.inl rfl)
  | onlyNumber => exact hlone (Or.inr (Or.inl rfl))
  | onlyAnything => exact hlone (Or.inr (Or.inr rfl))
  | _ => exact sorted_pairwise byWords es

theorem inWeight_perm (es : List Entry) : (inWeight es).Perm es := layer_perm inKind_perm es

theorem inLevel_perm (es : List Entry) : (inLevel es).Perm es :=
  layer_perm (fun _ => inWeight_perm) es

theorem layered_perm (es : List Entry) : (layered es).Perm es :=
  layer_perm (fun _ => inLevel_perm) es

theorem layered_pairwise (es : List Entry) :
    (layered es).Pairwise fun a b => (order a b).isLE := by
  refine layer_pairwise compareLevels (fun _ => inLevel_perm) (fun _ es _ => ?_) es
  refine layer_pairwise (fun v w => compare w v) (fun _ => inWeight_perm) (fun _ es _ => ?_) es
  exact layer_pairwise (compareOn Kind.place) inKind_perm inKind_pairwise es

/-- A ranking is what comes out layer by layer, and it is the entries of the pool sorted by their
keys. There is no other way to sort them, and where they stand in the pool does not matter. -/
theorem ranked_by_key (pool : List Text) :
    ranked pool = (layered (pool.map ofText)).map pattern ∧
    (∃ es : List Entry, es.Perm (pool.map ofText) ∧ es.Pairwise (fun a b => a.key ≤ b.key) ∧
      ranked pool = es.map pattern) ∧
    (∀ es : List Entry, es.Perm (pool.map ofText) → es.Pairwise (fun a b => a.key ≤ b.key) →
      ranked pool = es.map pattern) ∧
    (∀ a b : Entry, a.key = b.key → a.pattern = b.pattern) ∧
    ∀ pool' : List Text, pool'.Perm pool → ranked pool' = ranked pool := by
  have hunique : ∀ es : List Entry, es.Perm (pool.map ofText) →
      es.Pairwise (fun a b => (order a b).isLE) → ranked pool = es.map pattern := by
    intro es hperm hsorted
    rw [ranked_eq, eq_arranged hperm hsorted]
  simp only [isLE_order_iff] at hunique
  have hlayered := layered_pairwise (pool.map ofText)
  simp only [isLE_order_iff] at hlayered
  have hranked := hunique _ (layered_perm _) hlayered
  exact ⟨hranked, ⟨_, layered_perm _, hlayered, hranked⟩, hunique, fun _ _ => pattern_of_key_eq,
    fun _ hperm => ranked_perm hperm⟩

/-- Two topics' worth of triggers, with a level or without one, and one of them twice. -/
def mixed : List Text :=
  ["*", "\x7binherits=1\x7dhello bot", "hello *", "\x7binherits=0\x7d#", "hello *",
    "* bye\x7bweight=10\x7d", "\x7binherits=0\x7dmy name is _"]

theorem mixed_ranked : ranked mixed.reverse = ranked mixed ∧
    ranked mixed = ["my name is _", "#", "hello bot", "* bye\x7bweight=10\x7d", "hello *", "hello *",
      "*"] := by
  obtain ⟨-, -, hunique, -, hperm⟩ := ranked_by_key mixed
  refine ⟨hperm _ (List.reverse_perm _), ?_⟩
  have hsorted := hunique (["\x7binherits=0\x7dmy name is _", "\x7binherits=0\x7d#",
    "\x7binherits=1\x7dhello bot", "* bye\x7bweight=10\x7d", "hello *", "hello *", "*"].map ofText)
  simp only [← isLE_order_iff] at hsorted
  exact hsorted (by decide +kernel) (by decide +kernel)

end Dialogue.Entry
