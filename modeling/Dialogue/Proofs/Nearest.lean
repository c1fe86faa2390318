import Dialogue.Proofs.Order
import Dialogue.Proofs.Owner

/-! How far the owner of a pattern is from the topic that asks, counted in references of
inheritance. Levels rank the entries of a pool, but the search for an owner does not look at
them. -/
namespace Dialogue.Topics

variable {topics : Topics}

/-- No walk to a topic that carries the pattern has fewer references of inheritance than some
walk to `owner`; only walks that the pool takes count. -/
def Nearest (topics : Topics) (limit : Nat) (name pattern owner : Text) : Prop :=
  ∃ r, Walk topics name r owner ∧ r.length ≤ limit ∧
    ∀ r' last, Walk topics name r' last → r'.length ≤ limit → topics.Carries last pattern →
      r.level ≤ r'.level

def AnsweredByNearest (topics : Topics) (limit : Nat) (name pattern : Text) : Prop :=
  ∃ owner position, topics.owner? limit name pattern = some (owner, position) ∧
    topics.Nearest limit name pattern owner

/-- A topic that carries the pattern itself needs no reference at all. -/
theorem nearest_self {limit : Nat} {name pattern : Text} (hc : topics.Carries name pattern) :
    topics.Nearest limit name pattern name := by
  obtain ⟨topic, -, ht, -⟩ := hc
  exact ⟨[], .stay ht, Nat.zero_le _, fun _ _ _ _ _ => Nat.zero_le _⟩

theorem find?_visits_self {limit : Nat} {name pattern : Text} (hc : topics.Carries name pattern) :
    (topics.visits limit name).find? (fun v => topics.Carries v.2 pattern) = some ([], name) := by
  obtain ⟨topic, -, ht, -⟩ := id hc
  rw [visits, visitsFrom, ht]
  simp [hc]

/-- Whenever a pattern is carried within the reach of the pool there is an owner, and a topic's
own rule comes before all others. Behind references the owner is near only if the search, which
does not look at levels, happens to meet a nearest topic first. -/
theorem answeredByNearest_iff (topics : Topics) (limit : Nat) (name pattern : Text) :
    (∀ owner position, topics.owner? limit name pattern = some (owner, position) ↔
      ∃ r, (topics.visits limit name).find? (fun v => topics.Carries v.2 pattern) =
        some (r, owner) ∧ topics.ownRule? owner pattern = some position) ∧
    ((∃ r last, Walk topics name r last ∧ r.length ≤ limit ∧ topics.Carries last pattern) →
      ∃ owner position, topics.owner? limit name pattern = some (owner, position)) ∧
    (topics.Carries name pattern → topics.AnsweredByNearest limit name pattern) ∧
    (topics.AnsweredByNearest limit name pattern ↔ ∃ r owner,
      (topics.visits limit name).find? (fun v => topics.Carries v.2 pattern) = some (r, owner) ∧
        topics.Nearest limit name pattern owner) := by
  have hiff : topics.AnsweredByNearest limit name pattern ↔ ∃ r owner,
      (topics.visits limit name).find? (fun v => topics.Carries v.2 pattern) = some (r, owner) ∧
        topics.Nearest limit name pattern owner := by
    constructor
    · rintro ⟨owner, position, ho, hn⟩
      obtain ⟨r, hf, -⟩ := owner?_eq_some_iff.mp ho
      exact ⟨r, owner, hf, hn⟩
    · rintro ⟨r, owner, hf, hn⟩
      have hc : topics.Carries owner pattern := by simpa using List.find?_some hf
      obtain ⟨position, hp⟩ := Option.isSome_iff_exists.mp (carries_iff_isSome.mp hc)
      exact ⟨owner, position, owner?_eq_some_iff.mpr ⟨r, hf, hp⟩, hn⟩
  refine ⟨fun _ _ => owner?_eq_some_iff, ?_, fun hc => ?_, hiff⟩
  · rintro ⟨r, last, w, hr, hc⟩
    exact exists_owner_of_carries w hr hc
  · exact hiff.mpr ⟨[], name, find?_visits_self hc, nearest_self hc⟩

def nearAndFar : Topics :=
  ⟨[("random", { includes := ["near"], inherits := ["far"] }),
    ("near", { rules := [{ pattern := "hello" }] }),
    ("far", { rules := [{ pattern := "hello" }] })]⟩

theorem nearAndFar_answered :
    (∃ owner position, nearAndFar.owner? 50 "random" "hello" = some (owner, position)) ∧
      nearAndFar.AnsweredByNearest 50 "near" "hello" := by
  have hwalk : Walk nearAndFar "random" [(.includes, "near")] "near" :=
    .go rfl (by decide) (.stay rfl)
  obtain ⟨-, hexists, -, -⟩ := answeredByNearest_iff nearAndFar 50 "random" "hello"
  obtain ⟨-, -, hself, -⟩ := answeredByNearest_iff nearAndFar 50 "near" "hello"
  exact ⟨hexists ⟨_, _, hwalk, by decide, by decide⟩, hself (by decide)⟩

/-- The pattern is ranked for both topics, the included one first, and the other one answers. -/
theorem inherited_answers_before_included :
    ("hello" : Text) ∈ Entry.ranked (nearAndFar.pool 50 "random") ∧
      nearAndFar.Carries "near" "hello" ∧ nearAndFar.Carries "far" "hello" ∧
      nearAndFar.owner? 50 "random" "hello" = some (("far" : Text), 0) ∧
      ¬ nearAndFar.AnsweredByNearest 50 "random" "hello" := by
  have howner : nearAndFar.owner? 50 "random" "hello" = some (("far" : Text), 0) := rfl
  refine ⟨Entry.mem_ranked.mpr (by decide +kernel), by decide, by decide, howner, ?_⟩
  rintro ⟨owner, position, ho, r, w, hr, hmin⟩
  rw [howner, Option.some.injEq, Prod.mk.injEq] at ho
  have hfar : ∀ v ∈ nearAndFar.visitsFrom 50 "random", v.2 = "far" → 0 < Route.level v.1 := by
    decide +kernel
  have hnear : (([(.includes, "near")] : Route), ("near" : Text)) ∈
      nearAndFar.visitsFrom 50 "random" := by
    decide +kernel
  obtain ⟨w', hr'⟩ := mem_visitsFrom.mp hnear
  have hle := hmin _ _ w' hr' (by decide)
  have hlt := hfar (r, owner) (mem_visitsFrom.mpr ⟨w, hr⟩) ho.1.symm
  exact Nat.lt_irrefl 0 (Nat.lt_of_lt_of_le hlt hle)

end Dialogue.Topics
