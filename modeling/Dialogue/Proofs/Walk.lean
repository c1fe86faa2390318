import Dialogue.Topic.Walk
import Mathlib.Data.List.Basic
import Mathlib.Data.List.Flatten

/-! Walks through topics by their references. A pool holds one entry for each walk that is short
enough and each rule at its end; cycles only make more walks. -/
namespace Dialogue

inductive Link where
  | includes
  | inherits
  deriving DecidableEq, Repr

/-- The references that a walk takes, each with the topic it leads to. -/
abbrev Route := List (Link × Text)

namespace Route

def level (r : Route) : Nat := r.countP (·.1 = .inherits)

@[simp] theorem level_nil : level [] = 0 := rfl

@[simp] theorem level_includes (name : Text) (r : Route) :
    level ((.includes, name) :: r) = level r := by
  simp [level]

@[simp] theorem level_inherits (name : Text) (r : Route) :
    level ((.inherits, name) :: r) = level r + 1 := by
  simp [level]

theorem level_le_length (r : Route) : r.level ≤ r.length := List.countP_le_length

end Route

/-- References in the order in which a pool follows them. -/
def Topic.links (t : Topic) : List (Link × Text) :=
  t.includes.map (.includes, ·) ++ t.inherits.map (.inherits, ·)

theorem Topic.mem_links {t : Topic} {link : Link} {name : Text} :
    (link, name) ∈ t.links ↔
      (link = .includes ∧ name ∈ t.includes) ∨ (link = .inherits ∧ name ∈ t.inherits) := by
  cases link <;> simp [links]

namespace Topics

variable {topics : Topics}

/-- Only topics that exist are walked through. -/
inductive Walk (topics : Topics) : Text → Route → Text → Prop where
  | stay {name topic} : topics.find? name = some topic → Walk topics name [] name
  | go {name topic link next route last} : topics.find? name = some topic →
      (link, next) ∈ topic.links → Walk topics next route last →
      Walk topics name ((link, next) :: route) last

def inherits (topics : Topics) (name : Text) : Bool :=
  (topics.find? name).any fun t => !t.inherits.isEmpty

def inheriting (topics : Topics) (name : Text) (r : Route) : Bool :=
  (name :: r.map Prod.snd).any topics.inherits

theorem inheriting_cons (name : Text) (l : Link × Text) (r : Route) :
    topics.inheriting name (l :: r) = (topics.inherits name || topics.inheriting l.2 r) := by
  simp [inheriting]

/-- A walk over an edge of inheritance passes a topic that inherits. -/
theorem Walk.inheriting {name route last} (w : Walk topics name route last)
    (h : 0 < route.level) : topics.inheriting name route = true := by
  induction w with
  | stay => simp at h
  | @go name topic link next route last ht hl w ih =>
    rw [inheriting_cons, Bool.or_eq_true]
    cases link with
    | includes => exact Or.inr (ih (by simpa using h))
    | inherits =>
      have hm : next ∈ topic.inherits := by simpa [Topic.mem_links] using hl
      exact Or.inl (by simpa [inherits, ht] using List.ne_nil_of_mem hm)

end Topics

/-- Where an entry of a pool comes from: the walk to a topic and a rule of that topic. -/
structure Origin where
  route : Route
  position : Nat
  rule : Rule
  deriving DecidableEq, Repr

namespace Origin

def IsLocal (o : Origin) : Prop := o.route = []

def IsInherited (o : Origin) : Prop := 0 < o.route.level

instance (o : Origin) : Decidable o.IsLocal := inferInstanceAs (Decidable (_ = _))

instance (o : Origin) : Decidable o.IsInherited := inferInstanceAs (Decidable (_ < _))

end Origin

/-- Rules that do not look back, as origins at the end of the empty walk. -/
def Topic.origins (t : Topic) : List Origin :=
  (t.rules.zipIdx.filter (·.1.previous.isNone)).map fun r => ⟨[], r.2, r.1⟩

theorem Topic.mem_origins {t : Topic} {o : Origin} :
    o ∈ t.origins ↔ o.route = [] ∧ t.rules[o.position]? = some o.rule ∧ o.rule.previous = none := by
  obtain ⟨route, position, rule⟩ := o
  simp only [origins, List.mem_map, List.mem_filter, Origin.mk.injEq, Prod.exists,
    List.mem_zipIdx_iff_getElem?, Option.isNone_iff_eq_none]
  constructor
  · rintro ⟨r, i, ⟨hr, hp⟩, rfl, rfl, rfl⟩
    exact ⟨rfl, hr, hp⟩
  · rintro ⟨rfl, hr, hp⟩
    exact ⟨rule, position, ⟨hr, hp⟩, rfl, rfl, rfl⟩

theorem Topic.map_origins {α : Type} (t : Topic) (f : Rule → α) :
    t.origins.map (fun o => f o.rule) = (t.rules.filter (·.previous.isNone)).map f := by
  rw [origins, List.map_map, ← List.zipIdx_map_fst 0 t.rules, List.filter_map, List.map_map,
    List.zipIdx_map_fst]
  rfl

namespace Topics

variable {topics : Topics}

/-- The origins of a pool in its order, for walks through at most `steps` topics. -/
def originsFrom (topics : Topics) : (steps : Nat) → (name : Text) → List Origin
  | 0, _ => []
  | steps + 1, name =>
    match topics.find? name with
    | none => []
    | some topic =>
      (topic.links.flatMap fun l =>
        (originsFrom topics steps l.2).map fun o => { o with route := l :: o.route }) ++
        topic.origins

def origins (topics : Topics) (limit : Nat) (name : Text) : List Origin :=
  originsFrom topics (limit + 1) name

theorem mem_originsFrom {steps : Nat} {name : Text} {o : Origin} :
    o ∈ topics.originsFrom steps name ↔ o.route.length < steps ∧
      ∃ last topic, Walk topics name o.route last ∧ topics.find? last = some topic ∧
        topic.rules[o.position]? = some o.rule ∧ o.rule.previous = none := by
  induction steps generalizing name o with
  | zero => simp [originsFrom]
  | succ steps ih =>
    obtain ⟨route, position, rule⟩ := o
    cases ht : topics.find? name with
    | none =>
      simp only [originsFrom, ht, List.not_mem_nil, false_iff]
      rintro ⟨-, last, topic, w, -⟩
      cases w <;> simp_all
    | some topic =>
      simp only [originsFrom, ht, List.mem_append, List.mem_flatMap, List.mem_map,
        Topic.mem_origins]
      constructor
      · rintro (⟨l, hl, o, ho, heq⟩ | ⟨hroute, hr, hp⟩)
        · obtain ⟨hlen, last, t, w, h⟩ := ih.mp ho
          cases heq
          exact ⟨by simpa using hlen, last, t, .go ht hl w, h⟩
        · cases hroute
          exact ⟨by simp, name, topic, .stay ht, ht, hr, hp⟩
      · rintro ⟨hlen, last, t, w, hlast, hr, hp⟩
        cases w with
        | stay =>
          rw [ht, Option.some.injEq] at hlast
          exact Or.inr ⟨rfl, hlast ▸ hr, hp⟩
        | @go _ topic' link next route _ ht' hl w =>
          rw [ht, Option.some.injEq] at ht'
          refine Or.inl ⟨(link, next), ht' ▸ hl, ⟨route, position, rule⟩, ?_, rfl⟩
          exact ih.mpr ⟨by simpa using hlen, last, t, w, hlast, hr, hp⟩

/-- A rule as it stands in a pool, behind the mark of its level if it has one. -/
def mark (topics : Topics) (name : Text) (o : Origin) : Text :=
  if topics.inheriting name o.route then levelMark o.route.level ++ o.rule.pattern
  else o.rule.pattern

theorem poolFrom_eq (topics : Topics) (steps : Nat) (name : Text) (level : Nat) (marked : Bool) :
    topics.poolFrom steps name level marked = (topics.originsFrom steps name).map fun o =>
      if marked || topics.inheriting name o.route
      then levelMark (level + o.route.level) ++ o.rule.pattern else o.rule.pattern := by
  induction steps generalizing name level marked with
  | zero => rfl
  | succ steps ih =>
    cases ht : topics.find? name with
    | none => simp [poolFrom, originsFrom, ht]
    | some topic =>
      have hown : topics.inherits name = !topic.inherits.isEmpty := by simp [inherits, ht]
      simp only [poolFrom, originsFrom, ht, List.map_append, List.map_flatMap, List.map_map,
        Topic.links, List.flatMap_append, List.flatMap_map, Function.comp_def]
      congr 1
      · congr 1
        · refine List.flatMap_congr fun n _ => ?_
          rw [ih]
          simp [inheriting_cons, hown, Bool.or_assoc]
        · refine List.flatMap_congr fun n hn => ?_
          have hne : topic.inherits.isEmpty = false := by
            simpa using List.ne_nil_of_mem hn
          rw [ih]
          simp [inheriting_cons, hown, hne, Nat.add_assoc, Nat.add_comm 1]
      · have h := topic.map_origins fun r =>
          if marked || !topic.inherits.isEmpty then levelMark level ++ r.pattern else r.pattern
        rw [← h]
        refine List.map_congr_left fun o ho => ?_
        have hr := (Topic.mem_origins.mp ho).1
        simp [hr, inheriting, hown]

theorem pool_eq (topics : Topics) (limit : Nat) (name : Text) :
    topics.pool limit name = (topics.origins limit name).map (topics.mark name) := by
  simp [pool, origins, poolFrom_eq, mark]

end Topics

end Dialogue
