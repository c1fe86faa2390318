import Dialogue.Proofs.Order
import Dialogue.Proofs.Owner
import Dialogue.Proofs.Playbook
import Dialogue.Reply.Selection

/-! A message is answered by the best-ranked entry of the topic's pool that matches it and has an
owner. -/
namespace Dialogue

/-- What a topic can answer to, each with the keys it is ranked by. -/
def Topics.entries (topics : Topics) (limit : Nat) (name : Text) : List Entry :=
  (topics.pool limit name).map Entry.ofText

theorem Topics.pool_of_absent {topics : Topics} {name : Text} (h : topics.find? name = none)
    (limit : Nat) : topics.pool limit name = [] := by
  simp [pool, poolFrom, h]

/-- What is tried in a topic, which is nothing if there is no such topic. -/
theorem Playbook.tried_eq (settings : Settings) (depth : Nat) (s : Script) (name : Text) :
    ((build settings depth s).ranked.find? name).getD [] =
      (Entry.arranged (s.topics.entries depth name)).map Entry.pattern := by
  rw [find?_ranked, Topics.entries, ← Entry.ranked_eq]
  cases h : s.topics.find? name with
  | none =>
    rw [Topics.pool_of_absent h]
    simp [Entry.ranked]
  | some _ => rfl

namespace Selection

variable {p : Playbook} {s : Surroundings} {strict : Bool} {topic message : Text}

/-- Some rule within reach of the topic can answer for the pattern. -/
def Owned (p : Playbook) (topic pattern : Text) : Prop :=
  (p.topics.owner? p.depth topic pattern).isSome

/-- The rule of a match is the owner of the pattern, which matched and left these stars. -/
structure Answers (p : Playbook) (s : Surroundings) (strict : Bool) (topic message : Text)
    (pattern : Text) (m : Match) : Prop where
  fits : tryPattern s strict pattern message = .ok (some m.stars)
  owner : ∃ position, p.topics.owner? p.depth topic pattern = some (m.topic, position) ∧
    p.topics.rule? m.topic position = some m.rule
  pattern_eq : m.rule.pattern = pattern
  not_previous : m.rule.previous = none ∧ m.viaPrevious = false

/-- The pattern that decides what comes of a list of triggers. -/
def Decides (p : Playbook) (s : Surroundings) (strict : Bool) (topic message pattern : Text)
    (result : Except Fault (Option Match × Nat)) : Prop :=
  (∃ m n, Answers p s strict topic message pattern m ∧ result = .ok (some m, n)) ∨
    ∃ fault, tryPattern s strict pattern message = .error fault ∧ result = .error fault

/-- All that is read of a playbook is who owns the patterns. -/
theorem firstTrigger_congr {q : Playbook}
    (howner : ∀ pattern, q.topics.owner? q.depth topic pattern = p.topics.owner? p.depth topic pattern)
    (hrule : ∀ pattern owner, p.topics.owner? p.depth topic pattern = some owner →
      q.topics.rule? owner.1 owner.2 = p.topics.rule? owner.1 owner.2) (tried : Nat)
    (patterns : List Text) : firstTrigger q s strict topic message tried patterns =
      firstTrigger p s strict topic message tried patterns := by
  induction patterns generalizing tried with
  | nil => rfl
  | cons pattern patterns ih =>
    rw [firstTrigger, firstTrigger, howner]
    cases hsome : p.topics.owner? p.depth topic pattern with
    | none => simp only [ih]
    | some owner =>
      obtain ⟨owner, position⟩ := owner
      simp only [ih, hrule pattern _ hsome]

/-- All that is read of a playbook are the rules of the topics. -/
theorem firstLookback_congr {q : Playbook} (lastReply : Text) (tried : Nat)
    {lookbacks : List (Text × Lookback)}
    (hsame : ∀ l ∈ lookbacks, q.topics.find? l.1 = p.topics.find? l.1) :
    firstLookback q s strict lastReply message tried lookbacks =
      firstLookback p s strict lastReply message tried lookbacks := by
  induction lookbacks generalizing tried with
  | nil => rfl
  | cons l lookbacks ih =>
    obtain ⟨name, l⟩ := l
    rw [List.forall_mem_cons] at hsame
    have hrest := fun tried => ih tried hsame.2
    simp only [firstLookback, hsame.1, hrest]

/-- One trigger either is passed over, as it does not match or nobody owns it, or decides. -/
theorem firstTrigger_cons (tried : Nat) (pattern : Text) (rest : List Text) :
    ((Owned p topic pattern → tryPattern s strict pattern message = .ok none) ∧
      firstTrigger p s strict topic message tried (pattern :: rest) =
        firstTrigger p s strict topic message (tried + 1) rest) ∨
    Decides p s strict topic message pattern
      (firstTrigger p s strict topic message tried (pattern :: rest)) := by
  rw [firstTrigger]
  cases ht : tryPattern s strict pattern message with
  | error fault => exact Or.inr (Or.inr ⟨fault, ht, rfl⟩)
  | ok stars? =>
    cases stars? with
    | none => exact Or.inl ⟨fun _ => rfl, rfl⟩
    | some stars =>
      cases ho : p.topics.owner? p.depth topic pattern with
      | none => exact Or.inl ⟨fun hn => by simp [Owned, ho] at hn, rfl⟩
      | some found =>
        obtain ⟨owner, position⟩ := found
        obtain ⟨rule, hr, hprev, hpat⟩ := Topics.rule?_of_owner? ho
        refine Or.inr <| Or.inl
          ⟨{ topic := owner, rule, viaPrevious := false, stars }, tried + 1, ?_, ?_⟩
        · exact ⟨ht, ⟨position, ho, hr⟩, hpat, hprev, rfl⟩
        · simp only [hr]
          rfl

/-- Nothing is passed over that could have answered. -/
theorem firstTrigger_run (tried : Nat) (patterns : List Text) :
    ((∀ pattern ∈ patterns, Owned p topic pattern →
        tryPattern s strict pattern message = .ok none) ∧
      ∃ n, firstTrigger p s strict topic message tried patterns = .ok (none, n)) ∨
    ∃ before pattern after, patterns = before ++ pattern :: after ∧
      (∀ passed ∈ before, Owned p topic passed → tryPattern s strict passed message = .ok none) ∧
      Decides p s strict topic message pattern
        (firstTrigger p s strict topic message tried patterns) := by
  induction patterns generalizing tried with
  | nil => exact Or.inl ⟨by simp, tried, rfl⟩
  | cons pattern rest ih =>
    rcases firstTrigger_cons tried pattern rest with ⟨hpass, hstep⟩ | hd
    · rw [hstep]
      rcases ih (tried + 1) with ⟨hall, hnone⟩ | ⟨before, q, after, rfl, hbefore, hd⟩
      · exact Or.inl ⟨List.forall_mem_cons.mpr ⟨hpass, hall⟩, hnone⟩
      · exact Or.inr
          ⟨pattern :: before, q, after, rfl, List.forall_mem_cons.mpr ⟨hpass, hbefore⟩, hd⟩
    · exact Or.inr ⟨[], pattern, rest, rfl, by simp, hd⟩

theorem firstTrigger_ok {tried : Nat} {patterns : List Text} {result : Option Match × Nat}
    (h : firstTrigger p s strict topic message tried patterns = .ok result) :
    (result.1 = none ∧ ∀ pattern ∈ patterns, Owned p topic pattern →
      tryPattern s strict pattern message = .ok none) ∨
    ∃ before pattern after m, patterns = before ++ pattern :: after ∧ result.1 = some m ∧
      Answers p s strict topic message pattern m ∧
      ∀ passed ∈ before, Owned p topic passed → tryPattern s strict passed message = .ok none := by
  rcases firstTrigger_run tried patterns with ⟨hall, n, hnone⟩ | ⟨before, q, after, hs, hbefore, hd⟩
  · rw [hnone] at h
    cases h
    exact Or.inl ⟨rfl, hall⟩
  · rcases hd with ⟨m, n, ha, hm⟩ | ⟨fault, -, hfault⟩
    · rw [hm] at h
      cases h
      exact Or.inr ⟨before, q, after, m, hs, rfl, ha, hbefore⟩
    · rw [hfault] at h
      cases h

/-- Whoever answers has the best key among all entries of the pool that match and are owned, and
if nobody answers there is no such entry. -/
theorem matchTrigger_best {settings : Settings} {depth : Nat} {script : Script} {p : Playbook}
    (hp : Playbook.ofScript settings depth script = .ok p) {b : Bot} {user topic message : Text}
    {result : Option Match × Nat} (h : matchTrigger b p user topic message = .ok result) :
    (∀ m, result.1 = some m → ∃ e ∈ script.topics.entries depth topic,
      Answers p (surroundings b p user) b.settings.strict topic message e.pattern m ∧
      ∀ better ∈ script.topics.entries depth topic, Owned p topic better.pattern →
        Entry.order better e = .lt →
        tryPattern (surroundings b p user) b.settings.strict better.pattern message = .ok none) ∧
    (result.1 = none → ∀ e ∈ script.topics.entries depth topic, Owned p topic e.pattern →
      tryPattern (surroundings b p user) b.settings.strict e.pattern message = .ok none) := by
  obtain rfl := Playbook.eq_build hp
  rw [matchTrigger, Playbook.tried_eq] at h
  rcases firstTrigger_ok h with ⟨hnone, hall⟩ | ⟨before, pattern, after, m, hs, hm, ha, hbefore⟩
  · refine ⟨fun m hm => by simp [hnone] at hm, fun _ e he ho => ?_⟩
    exact hall e.pattern (List.mem_map_of_mem (Entry.mem_arranged.mpr he)) ho
  · refine ⟨fun m' hm' => ?_, fun hnone => by simp [hm] at hnone⟩
    obtain rfl : m = m' := by simpa [hm] using hm'
    obtain ⟨es, rest, harr, rfl, hrest⟩ := List.map_eq_append_iff.mp hs
    obtain ⟨e, es', rfl, rfl, -⟩ := List.map_eq_cons_iff.mp hrest
    have he : e ∈ script.topics.entries depth topic := by
      rw [← Entry.mem_arranged, harr]
      simp
    refine ⟨e, he, ha, fun better hb ho hlt => ?_⟩
    exact hbefore _ (List.mem_map_of_mem (Entry.mem_before_of_lt harr hb hlt)) ho

def greeting : Script :=
  { topics := ⟨[("random", { rules := [{ pattern := "*" }, { pattern := "hello" }] })]⟩ }

theorem greeting_tried : (Entry.arranged (greeting.topics.entries 50 "random")).map
    Entry.pattern = [("hello" : Text), "*"] := by
  have hes : greeting.topics.entries 50 "random" = [Entry.ofText "*", Entry.ofText "hello"] := rfl
  rw [hes, Entry.arranged_pair (by decide)]
  rfl

def helloMatch : Match := ⟨"random", { pattern := "hello" }, false, [], []⟩

theorem greeting_matched :
    matchTrigger {} (Playbook.build {} 50 greeting) "user" "random" "hello" =
      .ok (some helloMatch, 1) := by
  rw [matchTrigger, Playbook.tried_eq, greeting_tried]
  rfl

theorem greeting_answered_best :
    matchTrigger {} (Playbook.build {} 50 greeting) "user" "random" "hello" =
      .ok (some helloMatch, 1) ∧ ∃ e ∈ greeting.topics.entries 50 "random",
        e.pattern = "hello" ∧ ∀ better ∈ greeting.topics.entries 50 "random",
          Owned (Playbook.build {} 50 greeting) "random" better.pattern →
          Entry.order better e = .lt →
          tryPattern (surroundings {} (Playbook.build {} 50 greeting) "user") false better.pattern
            "hello" = .ok none := by
  obtain ⟨e, he, ha, hbest⟩ := (matchTrigger_best
    (Playbook.ofScript_of_lenient rfl 50 greeting) greeting_matched).1 helloMatch rfl
  exact ⟨greeting_matched, e, he, ha.pattern_eq.symm, hbest⟩

end Selection

end Dialogue
