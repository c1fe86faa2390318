import Dialogue.Proofs.Walk

/-! Who answers for a pattern: the first topic that carries it in the order of the search, which
goes down one reference as far as it leads before it takes the next. -/
namespace Dialogue

theorem Topic.owns?_eq_some_iff {t : Topic} {pattern : Text} {position : Nat} :
    t.owns? pattern = some position ↔ ∃ h : position < t.rules.length,
      (t.rules[position].previous = none ∧ t.rules[position].pattern = pattern) ∧
        ∀ j (hj : j < position),
          ¬ (t.rules[j].previous = none ∧ t.rules[j].pattern = pattern) := by
  simp [owns?, List.findIdx?_eq_some_iff_getElem]

/-- References in the order in which an owner is looked for. -/
def Topic.searchLinks (t : Topic) : List (Link × Text) :=
  t.inherits.map (.inherits, ·) ++ t.includes.map (.includes, ·)

theorem Topic.mem_searchLinks {t : Topic} {l : Link × Text} : l ∈ t.searchLinks ↔ l ∈ t.links := by
  simp only [searchLinks, links, List.mem_append]
  exact or_comm

namespace Topics

variable {topics : Topics}

def ownRule? (topics : Topics) (name pattern : Text) : Option Nat :=
  (topics.find? name).bind (·.owns? pattern)

def Carries (topics : Topics) (name pattern : Text) : Prop :=
  ∃ topic rule, topics.find? name = some topic ∧ rule ∈ topic.rules ∧ rule.previous = none ∧
    rule.pattern = pattern

theorem carries_iff_isSome {name pattern : Text} :
    topics.Carries name pattern ↔ (topics.ownRule? name pattern).isSome := by
  cases ht : topics.find? name with
  | none => simp [Carries, ownRule?, ht]
  | some topic =>
    simp only [Carries, ownRule?, ht, Option.bind_some, Topic.owns?, List.findIdx?_isSome,
      List.any_eq_true]
    constructor
    · rintro ⟨t, rule, h, hr, hp, hq⟩
      cases h
      exact ⟨rule, hr, by simp [hp, hq]⟩
    · rintro ⟨rule, hr, h⟩
      exact ⟨topic, rule, rfl, hr, by simpa using h⟩

instance (name pattern : Text) : Decidable (topics.Carries name pattern) :=
  decidable_of_iff _ carries_iff_isSome.symm

theorem ownRule?_eq_none_iff {name pattern : Text} :
    topics.ownRule? name pattern = none ↔ ¬ topics.Carries name pattern := by
  rw [carries_iff_isSome, Option.not_isSome_iff_eq_none]

/-- Topics in the order of the search, over at most `steps` references, each with the walk to
it. A topic is met once for each walk. -/
def visitsFrom (topics : Topics) : (steps : Nat) → (name : Text) → List (Route × Text)
  | 0, name =>
    match topics.find? name with
    | none => []
    | some _ => [([], name)]
  | steps + 1, name =>
    match topics.find? name with
    | none => []
    | some topic => ([], name) :: topic.searchLinks.flatMap fun l =>
      (visitsFrom topics steps l.2).map fun v => (l :: v.1, v.2)

/-- The search goes one reference further than the pool. -/
def visits (topics : Topics) (limit : Nat) (name : Text) : List (Route × Text) :=
  topics.visitsFrom (limit + 1) name

theorem mem_visitsFrom {steps : Nat} {name last : Text} {r : Route} :
    (r, last) ∈ topics.visitsFrom steps name ↔ Walk topics name r last ∧ r.length ≤ steps := by
  induction steps generalizing name r with
  | zero =>
    cases ht : topics.find? name with
    | none =>
      simp only [visitsFrom, ht, List.not_mem_nil, false_iff]
      rintro ⟨w, -⟩
      cases w <;> simp_all
    | some topic =>
      simp only [visitsFrom, ht, List.mem_singleton, Prod.mk.injEq]
      constructor
      · rintro ⟨rfl, rfl⟩
        exact ⟨.stay ht, Nat.le_refl _⟩
      · rintro ⟨w, hlen⟩
        cases w with
        | stay => exact ⟨rfl, rfl⟩
        | go => simp at hlen
  | succ steps ih =>
    cases ht : topics.find? name with
    | none =>
      simp only [visitsFrom, ht, List.not_mem_nil, false_iff]
      rintro ⟨w, -⟩
      cases w <;> simp_all
    | some topic =>
      simp only [visitsFrom, ht, List.mem_cons, Prod.mk.injEq, List.mem_flatMap, List.mem_map]
      constructor
      · rintro (⟨rfl, rfl⟩ | ⟨l, hl, v, hv, rfl, rfl⟩)
        · exact ⟨.stay ht, Nat.zero_le _⟩
        · obtain ⟨w, hlen⟩ := ih.mp hv
          exact ⟨.go ht (Topic.mem_searchLinks.mp hl) w, by simpa using hlen⟩
      · rintro ⟨w, hlen⟩
        cases w with
        | stay => exact Or.inl ⟨rfl, rfl⟩
        | @go _ topic' link next route _ ht' hl w =>
          rw [ht, Option.some.injEq] at ht'
          refine Or.inr ⟨(link, next), Topic.mem_searchLinks.mpr (ht' ▸ hl), (route, last), ?_, ?_⟩
          · exact ih.mpr ⟨w, by simpa using hlen⟩
          · exact ⟨rfl, rfl⟩

def ownerAt? (topics : Topics) (pattern : Text) (v : Route × Text) : Option (Text × Nat) :=
  (topics.ownRule? v.2 pattern).map fun position => (v.2, position)

private theorem findSome?_flatMap {α β γ : Type} (f : β → Option γ) (g : α → List β)
    (l : List α) : (l.flatMap g).findSome? f = l.findSome? fun a => (g a).findSome? f := by
  rw [← List.head?_filterMap, List.filterMap_flatMap, List.head?_flatMap]
  simp only [List.head?_filterMap]

theorem relatedOwner?_succ {topic : Topic} {name : Text} (ht : topics.find? name = some topic)
    (pattern : Text) (steps : Nat) :
    topics.relatedOwner? pattern (steps + 1) name =
      topic.searchLinks.findSome? fun l => (topics.ownerAt? pattern ([], l.2)).or
        (topics.relatedOwner? pattern steps l.2) := by
  simp only [relatedOwner?, ht, Topic.searchLinks, List.findSome?_append, List.findSome?_map]
  congr 1 <;>
  · refine congrArg (List.findSome? · _) (funext fun related => ?_)
    simp only [ownerAt?, ownRule?, Function.comp_apply]
    cases hr : topics.find? related with
    | none => cases steps <;> simp [relatedOwner?, hr]
    | some other => cases h : other.owns? pattern <;> simp [h]

theorem findSome?_visitsFrom (pattern : Text) (steps : Nat) (name : Text) :
    (topics.visitsFrom steps name).findSome? (topics.ownerAt? pattern) =
      (topics.ownerAt? pattern ([], name)).or (topics.relatedOwner? pattern steps name) := by
  induction steps generalizing name with
  | zero =>
    cases ht : topics.find? name with
    | none => simp [visitsFrom, relatedOwner?, ownerAt?, ownRule?, ht]
    | some topic =>
      simp only [visitsFrom, relatedOwner?, ht, List.findSome?_cons, List.findSome?_nil,
        Option.or_none]
      cases topics.ownerAt? pattern ([], name) <;> rfl
  | succ steps ih =>
    cases ht : topics.find? name with
    | none => simp [visitsFrom, relatedOwner?, ownerAt?, ownRule?, ht]
    | some topic =>
      have hbelow : ((topic.searchLinks.flatMap fun l =>
          (topics.visitsFrom steps l.2).map fun v => (l :: v.1, v.2)).findSome?
            (topics.ownerAt? pattern)) = topics.relatedOwner? pattern (steps + 1) name := by
        rw [relatedOwner?_succ ht, findSome?_flatMap]
        refine congrArg (List.findSome? · _) (funext fun l => ?_)
        rw [← ih, List.findSome?_map]
        rfl
      rw [visitsFrom, ht]
      simp only [List.findSome?_cons, hbelow]
      cases topics.ownerAt? pattern ([], name) <;> rfl

/-- The owner is the first topic of the search that carries the pattern. -/
theorem owner?_eq_findSome? (topics : Topics) (limit : Nat) (name pattern : Text) :
    topics.owner? limit name pattern =
      (topics.visits limit name).findSome? (topics.ownerAt? pattern) := by
  rw [visits, findSome?_visitsFrom, owner?, ownerAt?, ownRule?]
  cases ht : topics.find? name with
  | none => simp [relatedOwner?, ht]
  | some topic => cases h : topic.owns? pattern <;> simp [h]

theorem owner?_eq_some_iff {limit : Nat} {name pattern owner : Text} {position : Nat} :
    topics.owner? limit name pattern = some (owner, position) ↔
      ∃ r, (topics.visits limit name).find? (fun v => topics.Carries v.2 pattern) =
        some (r, owner) ∧ topics.ownRule? owner pattern = some position := by
  rw [owner?_eq_findSome?, List.findSome?_eq_some_iff]
  simp only [List.find?_eq_some_iff_append, ownerAt?, Option.map_eq_some_iff, Option.map_eq_none_iff,
    ownRule?_eq_none_iff, decide_eq_true_eq, Bool.not_eq_true', decide_eq_false_iff_not]
  constructor
  · rintro ⟨before, v, after, hv, ⟨i, hi, heq⟩, hbefore⟩
    cases heq
    exact ⟨v.1, ⟨carries_iff_isSome.mpr (by simp [hi]), before, after, hv, hbefore⟩, hi⟩
  · rintro ⟨r, ⟨-, before, after, hv, hbefore⟩, hi⟩
    exact ⟨before, (r, owner), after, hv, ⟨position, hi, rfl⟩, hbefore⟩

/-- An owner stands at the end of a walk and its rule has the pattern. -/
theorem rule?_of_owner? {limit : Nat} {name pattern owner : Text} {position : Nat}
    (h : topics.owner? limit name pattern = some (owner, position)) :
    ∃ rule, topics.rule? owner position = some rule ∧ rule.previous = none ∧
      rule.pattern = pattern := by
  obtain ⟨r, -, hi⟩ := owner?_eq_some_iff.mp h
  obtain ⟨topic, ht, hi⟩ := Option.bind_eq_some_iff.mp hi
  obtain ⟨hlt, ⟨hp, hq⟩, -⟩ := Topic.owns?_eq_some_iff.mp hi
  exact ⟨topic.rules[position], by simp [rule?, ht, hlt], hp, hq⟩

/-- The search misses no topic that the pool reaches. -/
theorem exists_owner_of_carries {limit : Nat} {name pattern last : Text} {r : Route}
    (w : Walk topics name r last) (hr : r.length ≤ limit) (hc : topics.Carries last pattern) :
    ∃ owner position, topics.owner? limit name pattern = some (owner, position) := by
  have hm : (r, last) ∈ topics.visits limit name := mem_visitsFrom.mpr ⟨w, by omega⟩
  cases hf : (topics.visits limit name).find? fun v => topics.Carries v.2 pattern with
  | none =>
    have hn := List.find?_eq_none.mp hf (r, last) hm
    exact absurd hc (by simpa using hn)
  | some v =>
    have hv : topics.Carries v.2 pattern := by simpa using List.find?_some hf
    obtain ⟨position, hp⟩ := Option.isSome_iff_exists.mp (carries_iff_isSome.mp hv)
    exact ⟨v.2, position, owner?_eq_some_iff.mpr ⟨v.1, hf, hp⟩⟩

/-- An owner is found for every pattern that the pool reaches. The search goes one reference further
than the pool and finds the first rule of the owner that has the pattern and does not look back. -/
theorem owner_within_reach (topics : Topics) (limit : Nat) (name pattern : Text) :
    (∀ route last, Walk topics name route last → route.length ≤ limit →
      topics.Carries last pattern → ∃ owner position rule,
        topics.owner? limit name pattern = some (owner, position) ∧
          topics.rule? owner position = some rule ∧ rule.pattern = pattern ∧ rule.previous = none) ∧
    ∀ owner position, topics.owner? limit name pattern = some (owner, position) →
      ∃ route topic, Walk topics name route owner ∧ route.length ≤ limit + 1 ∧
        topics.find? owner = some topic ∧ ∃ h : position < topic.rules.length,
          (topic.rules[position].previous = none ∧ topic.rules[position].pattern = pattern) ∧
            ∀ j (hj : j < position),
              ¬ (topic.rules[j].previous = none ∧ topic.rules[j].pattern = pattern) := by
  constructor
  · intro route last w hlen hc
    obtain ⟨owner, position, ho⟩ := exists_owner_of_carries w hlen hc
    obtain ⟨rule, hr, hp, hq⟩ := rule?_of_owner? ho
    exact ⟨owner, position, rule, ho, hr, hq, hp⟩
  · intro owner position ho
    obtain ⟨route, hf, hi⟩ := owner?_eq_some_iff.mp ho
    obtain ⟨w, hlen⟩ := mem_visitsFrom.mp (List.mem_of_find?_eq_some hf)
    obtain ⟨topic, ht, hi⟩ := Option.bind_eq_some_iff.mp hi
    exact ⟨route, topic, w, hlen, ht, Topic.owns?_eq_some_iff.mp hi⟩

/-- Two topics that include each other, and a third one behind them. -/
def circle : Topics :=
  ⟨[("random", { rules := [{ pattern := "hello", previous := some "bye" }], includes := ["near"] }),
    ("near",
      { rules := [{ pattern := "hello" }], includes := ["random", "nowhere"], inherits := ["far"] }),
    ("far", { rules := [{ pattern := "thanks" }, { pattern := "sorry" }, { pattern := "sorry" }] })]⟩

/-- The rule of the topic itself looks back, and another pattern stands one reference further than
the pool goes. -/
theorem circle_owned :
    (∃ owner position rule, circle.owner? 1 "random" "hello" = some (owner, position) ∧
      circle.rule? owner position = some rule ∧ rule.pattern = ("hello" : Text) ∧
        rule.previous = none) ∧
    circle.owner? 1 "random" "sorry" = some (("far" : Text), 1) ∧
      ∃ route, Walk circle "random" route "far" ∧ route.length ≤ 2 := by
  have hnear : Walk circle "random" [(.includes, "near")] "near" :=
    .go rfl (by decide) (.stay rfl)
  obtain ⟨hreached, -⟩ := owner_within_reach circle 1 "random" "hello"
  obtain ⟨-, hfound⟩ := owner_within_reach circle 1 "random" "sorry"
  have howner : circle.owner? 1 "random" "sorry" = some (("far" : Text), 1) := rfl
  obtain ⟨route, -, w, hlen, -⟩ := hfound _ _ howner
  exact ⟨hreached _ _ hnear (by decide) (by decide), howner, route, w, hlen⟩

end Topics

end Dialogue
