import Dialogue.Proofs.Order
import Dialogue.Proofs.Numeral
import Dialogue.Proofs.Walk
import Dialogue.Proofs.Playbook

/-! Where the rules of a topic stand among those it inherits. The mark of a level ranks them, but
only topics that inherit, and what they include, are marked. -/
namespace Dialogue.Topics

variable {topics : Topics} {limit : Nat} {name : Text}

def entryOf (topics : Topics) (name : Text) (o : Origin) : Entry := Entry.ofText (topics.mark name o)

/-- Origins of a pool in the order in which their entries are tried. -/
def ranking (topics : Topics) (limit : Nat) (name : Text) : List Origin :=
  (topics.origins limit name).mergeSort fun a b =>
    (Entry.order (topics.entryOf name a) (topics.entryOf name b)).isLE

theorem ranked_pool_eq (topics : Topics) (limit : Nat) (name : Text) :
    Entry.ranked (topics.pool limit name) =
      (topics.ranking limit name).map fun o => (topics.entryOf name o).pattern := by
  have hsort : (topics.ranking limit name).map (topics.entryOf name) =
      Entry.arranged ((topics.origins limit name).map (topics.entryOf name)) :=
    List.map_mergeSort fun _ _ _ _ => rfl
  rw [Entry.ranked_eq, pool_eq, List.map_map]
  exact (congrArg (List.map Entry.pattern) hsort).symm.trans List.map_map

/-- No inherited rule stands before a rule of the topic itself. -/
def LocalFirst (topics : Topics) (limit : Nat) (name : Text) : Prop :=
  (topics.ranking limit name).Pairwise fun a b => ¬ (a.IsInherited ∧ b.IsLocal)

theorem ranking_pairwise (topics : Topics) (limit : Nat) (name : Text) :
    (topics.ranking limit name).Pairwise fun a b =>
      (Entry.order (topics.entryOf name a) (topics.entryOf name b)).isLE :=
  List.pairwise_mergeSort (fun _ _ _ => Std.TransCmp.isLE_trans) (fun _ _ => Entry.isLE_total _ _) _

theorem mem_ranking {o : Origin} :
    o ∈ topics.ranking limit name ↔ o ∈ topics.origins limit name := List.mem_mergeSort

theorem mem_origins {o : Origin} :
    o ∈ topics.origins limit name ↔ o.route.length ≤ limit ∧
      ∃ last topic, Walk topics name o.route last ∧ topics.find? last = some topic ∧
        topic.rules[o.position]? = some o.rule ∧ o.rule.previous = none := by
  rw [origins, mem_originsFrom, Nat.lt_succ_iff]

theorem rule_mem_of_isLocal {o : Origin} (ho : o ∈ topics.origins limit name) (hl : o.IsLocal)
    {topic : Topic} (ht : topics.find? name = some topic) : o.rule ∈ topic.rules := by
  obtain ⟨-, last, topic', w, ht', hr, -⟩ := mem_origins.mp ho
  have hroute : o.route = [] := hl
  rw [hroute] at w
  cases w
  rw [ht, Option.some.injEq] at ht'
  exact ht' ▸ List.mem_of_getElem? hr

/-- The walk of a local rule is over before any reference is taken, and a pool lists it last. -/
theorem inherited_local_sublist {a b : Origin} (ha : a ∈ topics.origins limit name)
    (hb : b ∈ topics.origins limit name) (hl : a.IsLocal) (hi : b.IsInherited) :
    [b, a].Sublist (topics.origins limit name) := by
  have hne : b.route ≠ [] := by
    intro h
    rw [Origin.IsInherited, h] at hi
    contradiction
  rw [origins, originsFrom] at *
  cases ht : topics.find? name with
  | none => simp [ht] at ha
  | some topic =>
    simp only [ht, List.mem_append] at ha hb ⊢
    have ha' : a ∈ topic.origins := by
      refine ha.resolve_left fun h => ?_
      simp only [List.mem_flatMap, List.mem_map] at h
      obtain ⟨l, -, o, -, rfl⟩ := h
      exact List.cons_ne_nil _ _ hl
    have hb' := hb.resolve_right fun h => hne (Topic.mem_origins.mp h).1
    exact (List.singleton_sublist.mpr hb').append (List.singleton_sublist.mpr ha')

/-- Equal keys do not help a local rule, since sorting keeps it behind the inherited one. -/
theorem localFirst_iff_order : topics.LocalFirst limit name ↔
    ∀ a ∈ topics.origins limit name, ∀ b ∈ topics.origins limit name, a.IsLocal → b.IsInherited →
      Entry.order (topics.entryOf name a) (topics.entryOf name b) = .lt := by
  constructor
  · intro h a ha b hb hl hi
    by_contra hlt
    have hs : [b, a].Sublist (topics.ranking limit name) :=
      List.pair_sublist_mergeSort (fun _ _ _ => Std.TransCmp.isLE_trans)
        (fun _ _ => Entry.isLE_total _ _) (Entry.isLE_of_not_lt hlt)
        (inherited_local_sublist ha hb hl hi)
    exact (List.pairwise_cons.mp (h.sublist hs)).1 a (by simp) ⟨hi, hl⟩
  · intro h
    refine (ranking_pairwise topics limit name).imp_of_mem fun {b a} hb ha hle hba => ?_
    have hlt := h a (mem_ranking.mp ha) b (mem_ranking.mp hb) hba.2 hba.1
    rw [Entry.not_isLE_of_lt hlt] at hle
    contradiction

theorem level_entryOf_inherited {o : Origin} (ho : o ∈ topics.origins limit name)
    (hi : o.IsInherited) : (topics.entryOf name o).level =
      if o.route.level < Nat.pow 2 64 then some o.route.level else none := by
  obtain ⟨-, last, topic, w, -⟩ := mem_origins.mp ho
  rw [entryOf, mark, if_pos (w.inheriting hi), Entry.level_levelMark]

theorem mark_of_isLocal {o : Origin} (hl : o.IsLocal) : topics.mark name o =
    if topics.inherits name then levelMark 0 ++ o.rule.pattern else o.rule.pattern := by
  have hr : o.route = [] := hl
  simp [mark, inheriting, hr]

/-- In a topic that inherits, every rule of its own is marked and has the lowest level. -/
theorem order_of_inherits {a b : Origin} (hin : topics.inherits name) (hl : a.IsLocal)
    (hb : b ∈ topics.origins limit name) (hi : b.IsInherited) :
    Entry.order (topics.entryOf name a) (topics.entryOf name b) = .lt := by
  have hlevel : (topics.entryOf name a).level = some 0 := by
    rw [entryOf, mark_of_isLocal hl, if_pos hin, Entry.level_levelMark]
    decide
  have hlt : Entry.compareLevels (topics.entryOf name a).level (topics.entryOf name b).level =
      .lt := by
    rw [hlevel, level_entryOf_inherited hb hi]
    split
    · exact Nat.compare_eq_lt.mpr hi
    · rfl
  rw [Entry.order_of_levels (by simp [hlt]), hlt]

/-- In a topic that does not inherit, rules of its own are unmarked and come last. -/
theorem order_of_not_inherits {a b : Origin} (hin : topics.inherits name = false)
    (hl : a.IsLocal) (hplain : Entry.readLevel a.rule.pattern = none)
    (hb : b ∈ topics.origins limit name) (hi : b.IsInherited) (hlimit : limit < Nat.pow 2 64) :
    Entry.order (topics.entryOf name a) (topics.entryOf name b) = .gt := by
  have hlevel : (topics.entryOf name a).level = none := by
    rw [entryOf, mark_of_isLocal hl, hin]
    exact (Entry.ofText_of_readLevel_none hplain).2
  have hshort : b.route.level < Nat.pow 2 64 := by
    have hlen := (mem_origins.mp hb).1
    have hle := b.route.level_le_length
    omega
  have hgt : Entry.compareLevels (topics.entryOf name a).level (topics.entryOf name b).level =
      .gt := by
    rw [hlevel, level_entryOf_inherited hb hi, if_pos hshort]
    rfl
  rw [Entry.order_of_levels (by simp [hgt]), hgt]

/-- A topic that inherits keeps its own rules in front of all inherited ones. A topic that only
includes one which inherits does not, as soon as both have rules. -/
theorem localFirst_iff {settings : Settings} {depth : Nat} {script : Script} {p : Playbook}
    (hp : Playbook.ofScript settings depth script = .ok p) {topic : Topic}
    (ht : script.topics.find? name = some topic) :
    p.ranked.find? name = some ((script.topics.ranking depth name).map fun o =>
      (script.topics.entryOf name o).pattern) ∧
    (script.topics.LocalFirst depth name ↔ topic.inherits ≠ [] ∨
      ∀ a ∈ script.topics.origins depth name, ∀ b ∈ script.topics.origins depth name,
        a.IsLocal → b.IsInherited → Entry.order (script.topics.entryOf name a)
          (script.topics.entryOf name b) = .lt) ∧
    (depth < Nat.pow 2 64 → (∀ r ∈ topic.rules, Entry.readLevel r.pattern = none) →
      (script.topics.LocalFirst depth name ↔ topic.inherits ≠ [] ∨
        ¬ ((∃ a ∈ script.topics.origins depth name, a.IsLocal) ∧
          ∃ b ∈ script.topics.origins depth name, b.IsInherited))) := by
  obtain rfl := Playbook.eq_build hp
  have hin : script.topics.inherits name = true ↔ topic.inherits ≠ [] := by simp [inherits, ht]
  have hiff : script.topics.LocalFirst depth name ↔ topic.inherits ≠ [] ∨
      ∀ a ∈ script.topics.origins depth name, ∀ b ∈ script.topics.origins depth name,
        a.IsLocal → b.IsInherited → Entry.order (script.topics.entryOf name a)
          (script.topics.entryOf name b) = .lt := by
    rw [localFirst_iff_order]
    refine ⟨Or.inr, ?_⟩
    rintro (hne | h)
    · exact fun a _ b hb hl hi => order_of_inherits (hin.mpr hne) hl hb hi
    · exact h
  refine ⟨by rw [Playbook.find?_ranked, ht, ranked_pool_eq]; rfl, hiff, fun hdepth hplain => ?_⟩
  rw [hiff]
  refine or_congr_right' fun hnot => ?_
  have hout : script.topics.inherits name = false := by
    rw [← Bool.not_eq_true, hin]
    exact hnot
  constructor
  · rintro h ⟨⟨a, ha, hl⟩, b, hb, hi⟩
    have hmark := hplain a.rule (rule_mem_of_isLocal ha hl ht)
    have hgt := order_of_not_inherits hout hl hmark hb hi hdepth
    rw [h a ha b hb hl hi] at hgt
    contradiction
  · intro h a ha b hb hl hi
    exact absurd ⟨⟨a, ha, hl⟩, b, hb, hi⟩ h

def borrowed : Script :=
  { topics := ⟨[("random", { rules := [{ pattern := "*" }], includes := ["near"] }),
      ("near", { inherits := ["far"] }), ("far", { rules := [{ pattern := "hello" }] })]⟩ }

def borrowedOrigins : List Origin :=
  [⟨[(.includes, "near"), (.inherits, "far")], 0, { pattern := "hello" }⟩,
    ⟨[], 0, { pattern := "*" }⟩]

theorem borrowed_origins : borrowed.topics.origins 50 "random" = borrowedOrigins := by
  decide +kernel

theorem borrowed_localFirst :
    borrowed.topics.LocalFirst 50 "near" ∧ ¬ borrowed.topics.LocalFirst 50 "random" := by
  have hp : Playbook.ofScript {} 50 borrowed = .ok (Playbook.build {} 50 borrowed) :=
    Playbook.ofScript_of_lenient rfl 50 borrowed
  have hnear : borrowed.topics.find? "near" = some { inherits := ["far"] } := rfl
  have hrandom : borrowed.topics.find? "random" =
      some { rules := [{ pattern := "*" }], includes := ["near"] } := rfl
  have near := localFirst_iff hp hnear
  have random := localFirst_iff hp hrandom
  refine ⟨near.2.1.mpr (Or.inl (by decide)), fun h => ?_⟩
  rcases (random.2.2 (by decide) (by decide)).mp h with hne | hnone
  · exact hne rfl
  · rw [borrowed_origins] at hnone
    exact hnone (by decide)

/-- The rule of the topic itself stands behind the one it only reaches by inheritance. -/
theorem inherited_ranked_before_local :
    (Playbook.build {} 50 borrowed).ranked.find? "random" = some [("hello" : Text), "*"] ∧
      ¬ borrowed.topics.LocalFirst 50 "random" := by
  have hpool : borrowed.topics.pool 50 "random" = [levelMark 1 ++ ("hello" : Text), "*"] := by
    rw [pool_eq, borrowed_origins]
    rfl
  constructor
  · rw [Playbook.find?_ranked, hpool, Entry.ranked_eq, Entry.arranged,
      List.mergeSort_of_pairwise (by decide +kernel)]
    rfl
  · rw [localFirst_iff_order, borrowed_origins]
    decide +kernel

end Dialogue.Topics
