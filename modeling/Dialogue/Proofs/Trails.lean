import Dialogue.Proofs.Lookback
import Dialogue.Proofs.Place

/-! The order of walks and of the rules that look back at their ends. A tree lists topics in the order
of the walks to them, so the places of its rules can be compared without listing them. -/
namespace Dialogue

/-! ### Walks in order -/

namespace Topics

variable {topics : Topics} {name : Text}

/-- The topics of a tree, each with the references that lead to it. -/
def trailsFrom (topics : Topics) : (steps : Nat) → (name : Text) → List (List Nat × Text)
  | 0, _ => []
  | steps + 1, name =>
    match topics.find? name with
    | none => []
    | some topic => ([], name) :: topic.links.zipIdx.flatMap fun l =>
      (trailsFrom topics steps l.1.2).map fun t => (l.2 :: t.1, t.2)

theorem treeFrom_eq (topics : Topics) (steps : Nat) (name : Text) :
    topics.treeFrom steps name = (topics.trailsFrom steps name).map Prod.snd := by
  induction steps generalizing name with
  | zero => rfl
  | succ steps ih =>
    cases ht : topics.find? name with
    | none => simp [treeFrom, trailsFrom, ht]
    | some topic =>
      have hlinks : topic.includes ++ topic.inherits = topic.links.map Prod.snd := by
        simp [Topic.links, Function.comp_def]
      simp only [treeFrom, trailsFrom, ht, List.map_cons, List.map_flatMap, List.map_map]
      rw [hlinks, List.flatMap_map, ← List.zipIdx_map_fst 0 topic.links, List.flatMap_map,
        List.zipIdx_map_fst]
      refine congrArg (name :: ·) (List.flatMap_congr fun l _ => ?_)
      rw [ih]
      rfl

theorem mem_trailsFrom {steps : Nat} {trail : List Nat} {last : Text} :
    (trail, last) ∈ topics.trailsFrom steps name ↔
      trail.length < steps ∧ topics.follow? name trail = some last := by
  induction steps generalizing name trail with
  | zero => simp [trailsFrom]
  | succ steps ih =>
    cases ht : topics.find? name with
    | none => cases trail <;> simp [trailsFrom, follow?, ht]
    | some topic =>
      simp only [trailsFrom, ht, List.mem_cons, Prod.mk.injEq, List.mem_flatMap, List.mem_map]
      constructor
      · rintro (⟨rfl, rfl⟩ | ⟨l, hl, t, htrail, rfl, rfl⟩)
        · simp [follow?, ht]
        · obtain ⟨hlength, hfollow⟩ := ih.mp htrail
          have hlink := List.mem_zipIdx_iff_getElem?.mp hl
          exact ⟨by simpa using hlength, by simp [follow?, ht, hlink, hfollow]⟩
      · rintro ⟨hlength, hfollow⟩
        cases trail with
        | nil =>
          simp only [follow?, ht, Option.map_some, Option.some.injEq] at hfollow
          exact Or.inl ⟨rfl, hfollow.symm⟩
        | cons i trail =>
          simp only [follow?, ht, Option.bind_some] at hfollow
          obtain ⟨l, hl, hfollow⟩ := Option.bind_eq_some_iff.mp hfollow
          refine Or.inr ⟨(l, i), List.mem_zipIdx_iff_getElem?.mpr hl, (trail, last), ?_, rfl, rfl⟩
          exact ih.mpr ⟨by simpa using hlength, hfollow⟩

/-- A walk comes before those that lead on from it, and these come in the order of the references. -/
theorem pairwise_trailsFrom (topics : Topics) (steps : Nat) (name : Text) :
    (topics.trailsFrom steps name).Pairwise fun t u => t.1 < u.1 := by
  induction steps generalizing name with
  | zero => exact .nil
  | succ steps ih =>
    cases ht : topics.find? name with
    | none => simp [trailsFrom, ht]
    | some topic =>
      simp only [trailsFrom, ht, List.pairwise_cons, List.pairwise_flatMap]
      refine ⟨?_, ?_, ?_⟩
      · intro t htrail
        obtain ⟨l, -, htrail⟩ := List.mem_flatMap.mp htrail
        obtain ⟨u, -, rfl⟩ := List.mem_map.mp htrail
        exact List.nil_lt_cons _ _
      · intro l _
        refine List.pairwise_map.mpr ((ih l.1.2).imp fun h => ?_)
        exact List.cons_lt_cons_iff.mpr (Or.inr ⟨rfl, h⟩)
      · have hincreasing : topic.links.zipIdx.Pairwise fun l k => l.2 < k.2 := by
          have hrange := List.zipIdx_map_snd 0 topic.links
          exact List.pairwise_map.mp (hrange ▸ List.pairwise_lt_range')
        refine hincreasing.imp fun {l k} hlt => ?_
        intro t htrail u htrail'
        obtain ⟨t, -, rfl⟩ := List.mem_map.mp htrail
        obtain ⟨u, -, rfl⟩ := List.mem_map.mp htrail'
        exact List.cons_lt_cons_iff.mpr (Or.inl hlt)

/-! ### Places in order -/

/-- Where the pattern with which the rule at a place looks back first appears in its topic. -/
def appearance (topics : Topics) (name : Text) (place : Place) : Nat :=
  let rules := (((topics.follow? name place.trail).bind topics.find?).map (·.rules)).getD []
  (rules.filterMap Rule.previous).idxOf (((rules[place.position]?).bind Rule.previous).getD [])

/-- A place is tried before another one: its walk comes first, or in the same topic its pattern to
look back appears first, or with the same pattern its rule stands first. -/
def Precedes (topics : Topics) (name : Text) (a b : Place) : Prop :=
  a.trail < b.trail ∨ a.trail = b.trail ∧
    (topics.appearance name a < topics.appearance name b ∨
      topics.appearance name a = topics.appearance name b ∧ a.position < b.position)

theorem Precedes.irrefl (a : Place) : ¬ topics.Precedes name a a := by
  rintro (h | ⟨-, h | ⟨-, h⟩⟩)
  · exact List.lt_irrefl _ h
  · omega
  · omega

theorem Precedes.asymm {a b : Place} (h : topics.Precedes name a b) :
    ¬ topics.Precedes name b a := by
  intro k
  rcases h with h | ⟨heq, h⟩
  · rcases k with k | ⟨keq, -⟩
    · exact List.lt_asymm h k
    · rw [keq] at h
      exact List.lt_irrefl _ h
  · rcases k with k | ⟨-, k⟩
    · rw [heq] at k
      exact List.lt_irrefl _ k
    · omega

end Topics

namespace Lookback

theorem idxOf_eraseDups (names : List Text) :
    names.eraseDups.Pairwise fun a b => names.idxOf a < names.idxOf b := by
  induction names using List.reverseRecOn with
  | nil => exact .nil
  | append_singleton names name ih =>
    have hsame : ∀ a ∈ names.eraseDups, (names ++ [name]).idxOf a = names.idxOf a := by
      intro a ha
      exact List.idxOf_append_of_mem (List.mem_eraseDups.mp ha)
    have hkept : names.eraseDups.Pairwise fun a b =>
        (names ++ [name]).idxOf a < (names ++ [name]).idxOf b := by
      refine ih.imp_of_mem fun {a b} ha hb hlt => ?_
      rw [hsame a ha, hsame b hb]
      exact hlt
    rw [eraseDups_concat, Topic.addName]
    split
    · exact hkept
    · rename_i hnew
      rw [List.pairwise_append]
      refine ⟨hkept, List.pairwise_singleton _ _, fun a ha b hb => ?_⟩
      obtain rfl := List.mem_singleton.mp hb
      have hmem : a ∈ names := List.mem_eraseDups.mp ha
      have hfresh : b ∉ names := fun h => hnew (List.mem_eraseDups.mpr h)
      have hlast : (names ++ [b]).idxOf b = names.length := by
        rw [List.idxOf_append_of_notMem hfresh]
        simp
      rw [hsame a ha, hlast]
      exact List.idxOf_lt_length_of_mem hmem

end Lookback

namespace Topics

variable {topics : Topics} {name : Text} {limit : Nat} {place : Place}

/-- An indexed pattern at the end of a walk. -/
structure Indexed where
  trail : List Nat
  last : Text
  lookback : Lookback

def Indexed.places (e : Indexed) : List Place := e.lookback.positions.map fun i => ⟨e.trail, i⟩

/-- The patterns that replies look back with in a topic, in their order. -/
def indexed (topics : Topics) (limit : Nat) (name : Text) : List Indexed :=
  (topics.trailsFrom (limit + 1) name).flatMap fun t =>
    (((topics.find? t.2).map Lookback.index).getD []).map fun l => ⟨t.1, t.2, l⟩

/-- The places of the rules that look back, in the order in which they are tried. -/
def followers (topics : Topics) (limit : Nat) (name : Text) : List Place :=
  (topics.indexed limit name).flatMap Indexed.places

/-- A pattern of a topic within reach, with the positions of its rules. -/
structure Indexed.Within (topics : Topics) (limit : Nat) (name : Text) (e : Indexed) (t : Topic) :
    Prop where
  reach : e.trail.length ≤ limit
  follow : topics.follow? name e.trail = some e.last
  find : topics.find? e.last = some t
  index : e.lookback ∈ Lookback.index t

theorem find?_of_follow? {trail : List Nat} {last : Text} (h : topics.follow? name trail = some last) :
    ∃ t, topics.find? last = some t := by
  induction trail generalizing name with
  | nil =>
    obtain ⟨t, ht, rfl⟩ := Option.map_eq_some_iff.mp h
    exact ⟨t, ht⟩
  | cons i trail ih =>
    obtain ⟨t, -, h⟩ := Option.bind_eq_some_iff.mp h
    obtain ⟨l, -, h⟩ := Option.bind_eq_some_iff.mp h
    exact ih h

theorem mem_indexed {e : Indexed} : e ∈ topics.indexed limit name ↔
    ∃ t, e.Within topics limit name t := by
  obtain ⟨trail, last, l⟩ := e
  simp only [indexed, List.mem_flatMap, List.mem_map, Indexed.mk.injEq, Prod.exists]
  constructor
  · rintro ⟨trail, last, htrail, l, hl, rfl, rfl, rfl⟩
    obtain ⟨hlength, hfollow⟩ := mem_trailsFrom.mp htrail
    obtain ⟨t, ht⟩ := find?_of_follow? hfollow
    rw [ht] at hl
    exact ⟨t, Nat.lt_succ_iff.mp hlength, hfollow, ht, hl⟩
  · rintro ⟨t, hlength, hfollow, ht, hl⟩
    refine ⟨trail, last, mem_trailsFrom.mpr ⟨Nat.lt_succ_iff.mpr hlength, hfollow⟩, l, ?_, rfl, rfl,
      rfl⟩
    rw [ht]
    exact hl

/-- The rules at the places of a pattern look back with it. -/
theorem Indexed.Within.at_iff {e : Indexed} {t : Topic} (h : e.Within topics limit name t) (i : Nat) :
    ⟨e.trail, i⟩ ∈ e.places ↔ Lookback.At t.rules i e.lookback.pattern := by
  rw [← (Lookback.indexes_index t).mem_positions _ h.index i, places]
  simp

theorem ruleAt?_of_follow? {trail : List Nat} {last : Text} {t : Topic}
    (hfollow : topics.follow? name trail = some last) (ht : topics.find? last = some t) (i : Nat) :
    topics.ruleAt? name ⟨trail, i⟩ = t.rules[i]? := by
  simp [ruleAt?, rule?, hfollow, ht]

theorem appearance_eq {trail : List Nat} {last pattern : Text} {t : Topic} {i : Nat}
    (hfollow : topics.follow? name trail = some last) (ht : topics.find? last = some t)
    (hat : Lookback.At t.rules i pattern) : topics.appearance name ⟨trail, i⟩ =
      (t.rules.filterMap Rule.previous).idxOf pattern := by
  obtain ⟨r, hr, hprevious⟩ := hat
  simp [appearance, hfollow, ht, hr, hprevious]

theorem mem_followers : place ∈ topics.followers limit name ↔
    place.trail.length ≤ limit ∧ ∃ r, topics.ruleAt? name place = some r ∧ r.previous.isSome := by
  obtain ⟨trail, i⟩ := place
  rw [followers, List.mem_flatMap]
  constructor
  · rintro ⟨e, he, hplace⟩
    obtain ⟨t, hwithin⟩ := mem_indexed.mp he
    obtain ⟨i, -, heq⟩ := List.mem_map.mp hplace
    cases heq
    obtain ⟨r, hr, hprevious⟩ := (hwithin.at_iff i).mp hplace
    refine ⟨hwithin.reach, r, ?_, ?_⟩
    · rw [ruleAt?_of_follow? hwithin.follow hwithin.find, hr]
    · rw [hprevious]
      rfl
  · rintro ⟨hlength, r, hr, hsome⟩
    obtain ⟨pattern, hprevious⟩ := Option.isSome_iff_exists.mp hsome
    obtain ⟨last, hfollow, -⟩ := Option.bind_eq_some_iff.mp hr
    obtain ⟨t, ht⟩ := find?_of_follow? hfollow
    rw [ruleAt?_of_follow? hfollow ht] at hr
    have hat : Lookback.At t.rules i pattern := ⟨r, hr, hprevious⟩
    obtain ⟨l, ⟨hl, hi⟩, -⟩ := (Lookback.indexes_index t).existsUnique hat
    refine ⟨⟨trail, last, l⟩, mem_indexed.mpr ⟨t, hlength, hfollow, ht, hl⟩, ?_⟩
    exact List.mem_map.mpr ⟨i, hi, rfl⟩

theorem pairwise_indexed (topics : Topics) (limit : Nat) (name : Text) :
    (topics.indexed limit name).Pairwise fun e k =>
      ∀ a ∈ e.places, ∀ b ∈ k.places, topics.Precedes name a b := by
  rw [indexed, List.pairwise_flatMap]
  constructor
  · rintro ⟨trail, last⟩ htrail
    obtain ⟨-, hfollow⟩ := mem_trailsFrom.mp htrail
    obtain ⟨t, ht⟩ := find?_of_follow? hfollow
    have hindexes := Lookback.indexes_index t
    have hfirst : (Lookback.index t).Pairwise fun l k =>
        (t.rules.filterMap Rule.previous).idxOf l.pattern <
          (t.rules.filterMap Rule.previous).idxOf k.pattern := by
      have hpatterns := Lookback.idxOf_eraseDups (t.rules.filterMap Rule.previous)
      rw [← hindexes.patterns, List.pairwise_map] at hpatterns
      exact hpatterns
    simp only [ht, Option.map_some, Option.getD_some]
    refine List.pairwise_map.mpr (hfirst.imp_of_mem fun {l k} hl hk hlt => ?_)
    intro a ha b hb
    obtain ⟨i, hi, rfl⟩ := List.mem_map.mp ha
    obtain ⟨j, hj, rfl⟩ := List.mem_map.mp hb
    refine Or.inr ⟨rfl, Or.inl ?_⟩
    rw [appearance_eq hfollow ht ((hindexes.mem_positions l hl i).mp hi),
      appearance_eq hfollow ht ((hindexes.mem_positions k hk j).mp hj)]
    exact hlt
  · refine (pairwise_trailsFrom topics _ name).imp fun {t u} hlt => ?_
    intro e he k hk a ha b hb
    obtain ⟨l, -, rfl⟩ := List.mem_map.mp he
    obtain ⟨l', -, rfl⟩ := List.mem_map.mp hk
    obtain ⟨i, -, rfl⟩ := List.mem_map.mp ha
    obtain ⟨j, -, rfl⟩ := List.mem_map.mp hb
    exact Or.inl hlt

theorem pairwise_followers (topics : Topics) (limit : Nat) (name : Text) :
    (topics.followers limit name).Pairwise (topics.Precedes name) := by
  rw [followers, List.pairwise_flatMap]
  refine ⟨fun e he => ?_, pairwise_indexed topics limit name⟩
  obtain ⟨t, hwithin⟩ := mem_indexed.mp he
  have hindexes := Lookback.indexes_index t
  refine List.pairwise_map.mpr ?_
  refine (hindexes.increasing _ hwithin.index).imp_of_mem fun {i j} hi hj hlt => ?_
  refine Or.inr ⟨rfl, Or.inr ⟨?_, hlt⟩⟩
  rw [appearance_eq hwithin.follow hwithin.find ((hindexes.mem_positions _ hwithin.index i).mp hi),
    appearance_eq hwithin.follow hwithin.find ((hindexes.mem_positions _ hwithin.index j).mp hj)]

end Topics

end Dialogue
