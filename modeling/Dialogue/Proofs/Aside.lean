import Dialogue.Proofs.Choice
import Dialogue.Proofs.LoadOrder

/-! A topic set aside. If no other topic leads to it, nothing that is matched in the other topics can
tell whether it is there. -/
namespace Dialogue

namespace Topics

/-- The second topics have one more, to which none of the others leads. -/
structure Aside (aside : Text) (ts us : Topics) : Prop where
  same : ∀ name, name ≠ aside → us.find? name = ts.find? name
  unlinked : ∀ name t, ts.find? name = some t → aside ∉ t.includes ∧ aside ∉ t.inherits

namespace Aside

variable {aside name pattern : Text} {ts us : Topics}

theorem ne_of_mem (h : Aside aside ts us) {t : Topic} (ht : ts.find? name = some t) {other : Text}
    (hother : other ∈ t.includes ∨ other ∈ t.inherits) : other ≠ aside := by
  obtain ⟨hincludes, hinherits⟩ := h.unlinked name t ht
  rintro rfl
  exact hother.elim hincludes hinherits

theorem poolFrom (h : Aside aside ts us) (hname : name ≠ aside) (steps level : Nat) (marked : Bool) :
    us.poolFrom steps name level marked = ts.poolFrom steps name level marked := by
  induction steps generalizing name level marked with
  | zero => rfl
  | succ steps ih =>
    rw [Topics.poolFrom, Topics.poolFrom, h.same name hname]
    cases ht : ts.find? name with
    | none => rfl
    | some t =>
      dsimp only
      congr 2
      · exact List.flatMap_congr fun n hn => ih (h.ne_of_mem ht (.inl hn)) _ _
      · exact List.flatMap_congr fun n hn => ih (h.ne_of_mem ht (.inr hn)) _ _

theorem treeFrom (h : Aside aside ts us) (hname : name ≠ aside) (steps : Nat) :
    us.treeFrom steps name = ts.treeFrom steps name := by
  induction steps generalizing name with
  | zero => rfl
  | succ steps ih =>
    rw [Topics.treeFrom, Topics.treeFrom, h.same name hname]
    cases ht : ts.find? name with
    | none => rfl
    | some t =>
      dsimp only
      congr 1
      exact List.flatMap_congr fun n hn => ih (h.ne_of_mem ht (List.mem_append.mp hn))

theorem ne_of_mem_treeFrom (h : Aside aside ts us) (hname : name ≠ aside) {steps : Nat}
    {other : Text} (hother : other ∈ ts.treeFrom steps name) : other ≠ aside := by
  induction steps generalizing name with
  | zero => cases hother
  | succ steps ih =>
    rw [Topics.treeFrom] at hother
    cases ht : ts.find? name with
    | none =>
      rw [ht] at hother
      cases hother
    | some t =>
      rw [ht] at hother
      rcases List.mem_cons.mp hother with rfl | hother
      · exact hname
      · obtain ⟨n, hn, hother⟩ := List.mem_flatMap.mp hother
        exact ih (h.ne_of_mem ht (List.mem_append.mp hn)) hother

theorem findSome?_congr {α β : Type} {f g : α → Option β} {l : List α} (h : ∀ a ∈ l, f a = g a) :
    l.findSome? f = l.findSome? g := by
  induction l with
  | nil => rfl
  | cons a l ih =>
    rw [List.forall_mem_cons] at h
    rw [List.findSome?_cons, List.findSome?_cons, h.1, ih h.2]

theorem relatedOwner? (h : Aside aside ts us) (hname : name ≠ aside) (steps : Nat) :
    us.relatedOwner? pattern steps name = ts.relatedOwner? pattern steps name := by
  induction steps generalizing name with
  | zero => rfl
  | succ steps ih =>
    rw [Topics.relatedOwner?, Topics.relatedOwner?, h.same name hname]
    cases ht : ts.find? name with
    | none => rfl
    | some t =>
      dsimp only
      refine findSome?_congr fun n hn => ?_
      have hn := h.ne_of_mem ht (List.mem_append.mp hn).symm
      rw [h.same n hn, ih hn]

/-- The rule that answers in another topic is in another topic. -/
theorem ne_of_relatedOwner? (h : Aside aside ts us) {steps : Nat} {owner : Text × Nat}
    (howner : ts.relatedOwner? pattern steps name = some owner) : owner.1 ≠ aside := by
  induction steps generalizing name with
  | zero => cases howner
  | succ steps ih =>
    rw [Topics.relatedOwner?] at howner
    cases ht : ts.find? name with
    | none =>
      rw [ht] at howner
      cases howner
    | some t =>
      rw [ht] at howner
      obtain ⟨n, hn, howner⟩ := List.exists_of_findSome?_eq_some howner
      have hn := h.ne_of_mem ht (List.mem_append.mp hn).symm
      split at howner
      · cases howner
      · split at howner
        · cases howner
          exact hn
        · exact ih howner

theorem owner? (h : Aside aside ts us) (hname : name ≠ aside) (limit : Nat) :
    us.owner? limit name pattern = ts.owner? limit name pattern := by
  rw [Topics.owner?, Topics.owner?, h.same name hname, h.relatedOwner? hname]

theorem ne_of_owner? (h : Aside aside ts us) (hname : name ≠ aside) {limit : Nat}
    {owner : Text × Nat} (howner : ts.owner? limit name pattern = some owner) :
    owner.1 ≠ aside := by
  rw [Topics.owner?] at howner
  split at howner
  · cases howner
  · split at howner
    · cases howner
      exact hname
    · exact h.ne_of_relatedOwner? howner

end Aside

end Topics

/-- The second playbook has one more topic, to which none of the others leads. -/
structure Playbook.Aside (aside : Text) (p q : Playbook) : Prop where
  topics : Topics.Aside aside p.topics q.topics
  ranked : ∀ name, name ≠ aside → q.ranked.find? name = p.ranked.find? name
  lookbacks : q.lookbacks = p.lookbacks
  arrays : q.arrays = p.arrays
  canon : q.canon = p.canon
  person : q.person = p.person
  depth : q.depth = p.depth

/-- A topic without rules that look back, added to a script that does not lead to it. -/
theorem Playbook.aside_build {s s' : Script} {aside : Text} {t : Topic}
    (hentries : Table.entries s'.topics = Table.entries s.topics ++ [(aside, t)])
    (hindex : Lookback.index t = [])
    (hunlinked : ∀ name u, s.topics.find? name = some u → aside ∉ u.includes ∧ aside ∉ u.inherits)
    (harrays : s'.arrays = s.arrays) (hsubstitutions : s'.substitutions = s.substitutions)
    (hperson : s'.person = s.person) (settings : Settings) (depth : Nat) :
    Aside aside (build settings depth s) (build settings depth s') := by
  have hfind : ∀ name, name ≠ aside → s'.topics.find? name = s.topics.find? name := by
    intro name hname
    have hne : (name == aside) = false := by simpa using hname
    rw [Table.find?, hentries, List.lookup_append, List.lookup_cons, hne, List.lookup_nil,
      Option.or_none]
    rfl
  have htopics : Topics.Aside aside s.topics s'.topics := ⟨hfind, hunlinked⟩
  exact {
    topics := htopics
    ranked := fun name hname => by
      rw [find?_ranked, find?_ranked, hfind name hname, Topics.pool, Topics.pool,
        htopics.poolFrom hname]
    lookbacks := by
      rw [build, build]
      dsimp only
      rw [hentries, List.filterMap_append]
      simp only [List.filterMap_cons, List.filterMap_nil, hindex, List.append_nil]
    arrays := harrays
    canon := congrArg (fun substitutions => (build settings depth { s with substitutions }).canon)
      hsubstitutions
    person := congrArg (fun person => (build settings depth { s with person }).person) hperson
    depth := rfl }

/-- Only topics that are there look back. -/
theorem Playbook.has_of_has_lookbacks {settings : Settings} {depth : Nat} {s : Script} {name : Text}
    (h : (build settings depth s).lookbacks.has name = true) : s.topics.has name = true := by
  rw [Table.has, ← Table.mem_keys] at h ⊢
  obtain ⟨⟨_, found⟩, hentry, rfl⟩ := List.mem_map.mp h
  obtain ⟨⟨key, t⟩, ht, hfound⟩ := List.mem_filterMap.mp hentry
  dsimp only at hfound
  split at hfound
  · cases hfound
  · cases hfound
    exact List.mem_map_of_mem ht

namespace Selection

variable {aside topic : Text} {p q : Playbook} (message : Text) (b : Bot) (user : Text)

theorem surroundings_aside (h : Playbook.Aside aside p q) :
    surroundings b q user = surroundings b p user := by
  rw [surroundings, surroundings, h.arrays]

theorem matchTrigger_aside (h : Playbook.Aside aside p q) (htopic : topic ≠ aside) :
    matchTrigger b q user topic message = matchTrigger b p user topic message := by
  rw [matchTrigger, matchTrigger, surroundings_aside b user h, h.ranked topic htopic]
  refine firstTrigger_congr (fun pattern => ?_) (fun pattern owner howner => ?_) 0 _
  · rw [h.depth, h.topics.owner? htopic]
  · rw [Topics.rule?, Topics.rule?, h.topics.same _ (h.topics.ne_of_owner? htopic howner)]

theorem matchPrevious_aside (h : Playbook.Aside aside p q) (htopic : topic ≠ aside) :
    matchPrevious b q user topic message = matchPrevious b p user topic message := by
  have htree : q.topics.tree q.depth topic = p.topics.tree p.depth topic := by
    rw [Topics.tree, Topics.tree, h.depth, h.topics.treeFrom htopic]
  have hne : ∀ name ∈ p.topics.tree p.depth topic, name ≠ aside :=
    fun name hname => h.topics.ne_of_mem_treeFrom htopic hname
  have hlooks : q.looksBack = p.looksBack := by
    funext names
    rw [Playbook.looksBack, Playbook.looksBack, h.lookbacks]
  rw [matchPrevious, matchPrevious, htree, surroundings_aside b user h, hlooks, h.canon,
    h.lookbacks, firstLookback_congr]
  intro l hl
  obtain ⟨name, hname, hl⟩ := List.mem_flatMap.mp hl
  obtain ⟨_, -, rfl⟩ := List.mem_map.mp hl
  exact h.topics.same name (hne name hname)

end Selection

end Dialogue
