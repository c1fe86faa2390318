import Dialogue.Proofs.Inheritance
import Mathlib.Data.List.Forall2
import Mathlib.Data.List.Nodup
import Mathlib.Data.List.Perm.Basic
import Mathlib.Data.List.Sigma

/-! The places that entries come from. A walk is told by the positions of the references it takes,
so that two walks differ even where a topic names another one twice, and every entry of a ranking
has a place of its own. -/
namespace Dialogue

/-- A rule at the end of a walk. -/
structure Place where
  trail : List Nat
  position : Nat
  deriving DecidableEq, Repr

/-- The same place seen from a topic whose reference at position `i` leads on to it. -/
def Place.behind (i : Nat) (place : Place) : Place := { place with trail := i :: place.trail }

namespace Topics

variable {topics : Topics} {name : Text} {place : Place}

/-- The topic to which a walk leads, if all its references are there. -/
def follow? (topics : Topics) : (name : Text) → (trail : List Nat) → Option Text
  | name, [] => (topics.find? name).map fun _ => name
  | name, i :: trail => (topics.find? name).bind fun t =>
    t.links[i]?.bind fun l => follow? topics l.2 trail

/-- The references that a walk takes, if they are all there. -/
def route? (topics : Topics) : (name : Text) → (trail : List Nat) → Option Route
  | name, [] => (topics.find? name).map fun _ => []
  | name, i :: trail => (topics.find? name).bind fun t =>
    t.links[i]?.bind fun l => (route? topics l.2 trail).map fun route => l :: route

def ruleAt? (topics : Topics) (name : Text) (place : Place) : Option Rule :=
  (topics.follow? name place.trail).bind fun last => topics.rule? last place.position

theorem ruleAt?_nil {t : Topic} (ht : topics.find? name = some t) (position : Nat) :
    topics.ruleAt? name ⟨[], position⟩ = t.rules[position]? := by
  simp [ruleAt?, follow?, rule?, ht]

theorem ruleAt?_behind {t : Topic} (ht : topics.find? name = some t) (i : Nat) :
    topics.ruleAt? name (place.behind i) =
      t.links[i]?.bind fun l => topics.ruleAt? l.2 place := by
  cases hl : t.links[i]? with
  | none => simp [ruleAt?, Place.behind, follow?, ht, hl]
  | some l => simp [ruleAt?, Place.behind, follow?, ht, hl]

theorem ruleAt?_of_absent (ht : topics.find? name = none) : topics.ruleAt? name place = none := by
  obtain ⟨trail, position⟩ := place
  cases trail <;> simp [ruleAt?, follow?, ht]

/-- The places of the origins of a pool, in the same order. -/
def placesFrom (topics : Topics) : (steps : Nat) → (name : Text) → List Place
  | 0, _ => []
  | steps + 1, name =>
    match topics.find? name with
    | none => []
    | some topic =>
      (topic.links.zipIdx.flatMap fun l => (placesFrom topics steps l.1.2).map (Place.behind l.2)) ++
        topic.origins.map fun o => ⟨[], o.position⟩

private theorem forall₂_flatMap {α β γ : Type} {R : β → γ → Prop} {f : α → List β}
    {g : α → List γ} {l : List α} (h : ∀ a ∈ l, List.Forall₂ R (f a) (g a)) :
    List.Forall₂ R (l.flatMap f) (l.flatMap g) := by
  induction l with
  | nil => exact .nil
  | cons a l ih =>
    rw [List.forall_mem_cons] at h
    exact List.rel_append h.1 (ih h.2)

theorem forall₂_places (topics : Topics) (steps : Nat) (name : Text) :
    List.Forall₂ (fun o place => topics.route? name place.trail = some o.route ∧
        topics.ruleAt? name place = some o.rule)
      (topics.originsFrom steps name) (topics.placesFrom steps name) := by
  induction steps generalizing name with
  | zero => exact .nil
  | succ steps ih =>
    cases ht : topics.find? name with
    | none =>
      rw [originsFrom, placesFrom, ht]
      exact .nil
    | some t =>
      rw [originsFrom, placesFrom, ht]
      refine List.rel_append ?_ ?_
      · -- Origins look at the references alone, places at their positions as well.
        rw [← List.zipIdx_map_fst 0 t.links, List.flatMap_map, List.zipIdx_map_fst]
        refine forall₂_flatMap fun l hl => ?_
        rw [List.forall₂_map_left_iff, List.forall₂_map_right_iff]
        refine (ih l.1.2).imp fun o place h => ?_
        obtain ⟨hroute, hr⟩ := h
        have hlink := List.mem_zipIdx_iff_getElem?.mp hl
        rw [ruleAt?_behind ht, hlink]
        exact ⟨by simp [Place.behind, route?, ht, hlink, hroute], hr⟩
      · rw [List.forall₂_map_right_iff, List.forall₂_same]
        intro o ho
        obtain ⟨hroute, hr, -⟩ := Topic.mem_origins.mp ho
        rw [ruleAt?_nil ht]
        exact ⟨by simp [route?, ht, hroute], hr⟩

theorem mem_placesFrom {steps : Nat} : place ∈ topics.placesFrom steps name ↔
    place.trail.length < steps ∧ ∃ r, topics.ruleAt? name place = some r ∧ r.previous = none := by
  induction steps generalizing name place with
  | zero => simp [placesFrom]
  | succ steps ih =>
    cases ht : topics.find? name with
    | none => simp [placesFrom, ht, ruleAt?_of_absent ht]
    | some t =>
      simp only [placesFrom, ht, List.mem_append, List.mem_flatMap, List.mem_map]
      constructor
      · rintro (⟨⟨l, i⟩, hl, place, hplace, rfl⟩ | ⟨o, ho, rfl⟩)
        · obtain ⟨hlen, r, hr, hp⟩ := ih.mp hplace
          refine ⟨by simpa [Place.behind] using hlen, r, ?_, hp⟩
          rw [ruleAt?_behind ht, List.mem_zipIdx_iff_getElem?.mp hl]
          exact hr
        · obtain ⟨-, hr, hp⟩ := Topic.mem_origins.mp ho
          exact ⟨Nat.succ_pos steps, o.rule, by rw [ruleAt?_nil ht, hr], hp⟩
      · obtain ⟨trail, position⟩ := place
        rintro ⟨hlen, r, hr, hp⟩
        cases trail with
        | nil =>
          rw [ruleAt?_nil ht] at hr
          exact Or.inr ⟨⟨[], position, r⟩, Topic.mem_origins.mpr ⟨rfl, hr, hp⟩, rfl⟩
        | cons i trail =>
          have hr' : topics.ruleAt? name (Place.behind i ⟨trail, position⟩) = some r := hr
          rw [ruleAt?_behind ht] at hr'
          obtain ⟨l, hl, hr'⟩ := Option.bind_eq_some_iff.mp hr'
          refine Or.inl ⟨(l, i), List.mem_zipIdx_iff_getElem?.mpr hl, ⟨trail, position⟩, ?_, rfl⟩
          exact ih.mpr ⟨by simpa using hlen, r, hr', hp⟩

theorem behind_injective (i : Nat) : Function.Injective (Place.behind i) := by
  rintro ⟨trail, position⟩ ⟨trail', position'⟩ h
  simpa [Place.behind] using h

/-- Places behind different references differ, and so do the rules of one topic. -/
theorem nodup_placesFrom (topics : Topics) (steps : Nat) (name : Text) :
    (topics.placesFrom steps name).Nodup := by
  induction steps generalizing name with
  | zero => exact List.nodup_nil
  | succ steps ih =>
    cases ht : topics.find? name with
    | none => simp [placesFrom, ht]
    | some t =>
      simp only [placesFrom, ht]
      rw [List.nodup_append]
      refine ⟨?_, ?_, ?_⟩
      · rw [List.nodup_flatMap]
        refine ⟨fun l _ => (ih l.1.2).map (behind_injective l.2), ?_⟩
        have hdistinct := List.pairwise_map.mp (List.nodup_zipIdx_map_snd t.links)
        refine hdistinct.imp fun {l l'} hne => ?_
        intro place hplace hplace'
        obtain ⟨a, -, rfl⟩ := List.mem_map.mp hplace
        obtain ⟨b, -, heq⟩ := List.mem_map.mp hplace'
        exact hne (List.cons.inj (congrArg Place.trail heq)).1.symm
      · rw [Topic.origins, List.map_map]
        have hdistinct := List.pairwise_map.mp (List.nodup_zipIdx_map_snd t.rules)
        refine List.pairwise_map.mpr ((hdistinct.filter _).imp fun hne heq => hne ?_)
        exact congrArg Place.position heq
      · -- What lies behind a reference has a trail, and the topic's own rules have none.
        intro a ha b hb hab
        obtain ⟨l, -, ha⟩ := List.mem_flatMap.mp ha
        obtain ⟨a, -, rfl⟩ := List.mem_map.mp ha
        obtain ⟨o, -, rfl⟩ := List.mem_map.mp hb
        exact List.cons_ne_nil _ _ (congrArg Place.trail hab)

/-- The text is the rule's pattern, though a mark that was written by hand may be taken away. -/
def Shows (r : Rule) (pattern : Text) : Prop :=
  pattern = r.pattern ∨ pattern = (Entry.ofText r.pattern).pattern

theorem shows_pattern (topics : Topics) (name : Text) (o : Origin) :
    Shows o.rule (topics.entryOf name o).pattern := by
  rw [entryOf, mark]
  split
  · exact Or.inl (Entry.pattern_levelMark _ _)
  · exact Or.inr rfl

/-- One pattern for each rule within reach that does not look back, each time it is reached. -/
def OnePerPlace (topics : Topics) (limit : Nat) (name : Text) (patterns : List Text) : Prop :=
  ∃ places : List Place, places.Nodup ∧
    (∀ place, place ∈ places ↔ place.trail.length ≤ limit ∧
      ∃ r, topics.ruleAt? name place = some r ∧ r.previous = none) ∧
    List.Forall₂ (fun pattern place => ∃ r, topics.ruleAt? name place = some r ∧ Shows r pattern)
      patterns places

theorem onePerPlace_ranked (topics : Topics) (limit : Nat) (name : Text) :
    OnePerPlace topics limit name (Entry.ranked (topics.pool limit name)) := by
  have hperm : (Entry.ranked (topics.pool limit name)).Perm
      ((topics.origins limit name).map fun o => (topics.entryOf name o).pattern) := by
    rw [ranked_pool_eq]
    exact (List.mergeSort_perm _ _).map _
  have hplaces : List.Forall₂
      (fun pattern place => ∃ r, topics.ruleAt? name place = some r ∧ Shows r pattern)
      ((topics.origins limit name).map fun o => (topics.entryOf name o).pattern)
      (topics.placesFrom (limit + 1) name) := by
    rw [List.forall₂_map_left_iff]
    exact (forall₂_places topics (limit + 1) name).imp fun o place h =>
      ⟨o.rule, h.2, shows_pattern topics name o⟩
  obtain ⟨places, hshow, hmoved⟩ := List.perm_comp_forall₂ hperm hplaces
  refine ⟨places, hmoved.nodup_iff.mpr (nodup_placesFrom topics _ name), fun place => ?_, hshow⟩
  rw [hmoved.mem_iff, mem_placesFrom, Nat.lt_succ_iff]

/-- A pool has one entry for each walk that is short enough and each rule at its end that does not
look back, and no other entry. The entry is marked with the number of references of inheritance on
the walk, if any topic on the walk inherits, the first and the last one included. -/
theorem pool_enumerates_walks (topics : Topics) (limit : Nat) (name : Text) :
    ∃ places : List Place, places.Nodup ∧
      (∀ place, place ∈ places ↔ place.trail.length ≤ limit ∧
        ∃ r, topics.ruleAt? name place = some r ∧ r.previous = none) ∧
      List.Forall₂ (fun entry place => ∃ route r, topics.route? name place.trail = some route ∧
          topics.ruleAt? name place = some r ∧
          entry = if topics.inheriting name route then levelMark route.level ++ r.pattern
            else r.pattern)
        (topics.pool limit name) places := by
  refine ⟨topics.placesFrom (limit + 1) name, nodup_placesFrom topics _ name, fun place => ?_, ?_⟩
  · rw [mem_placesFrom, Nat.lt_succ_iff]
  · rw [pool_eq, List.forall₂_map_left_iff]
    exact (forall₂_places topics (limit + 1) name).imp fun o place h =>
      ⟨o.route, o.rule, h.1, h.2, rfl⟩

end Topics

end Dialogue
