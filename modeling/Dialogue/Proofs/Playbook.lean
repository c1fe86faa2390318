import Dialogue.Playbook

/-! What a playbook holds that was made of a script. -/
namespace Dialogue.Playbook

theorem eq_build {settings : Settings} {depth : Nat} {s : Script} {p : Playbook}
    (h : ofScript settings depth s = .ok p) : p = build settings depth s := by
  unfold ofScript at h
  split at h
  · cases hc : checkPatterns s.topics with
    | error fault =>
      rw [hc] at h
      contradiction
    | ok _ =>
      rw [hc] at h
      exact (Except.ok.inj h).symm
  · exact (Except.ok.inj h).symm

theorem ofScript_of_lenient {settings : Settings} (h : settings.strict = false) (depth : Nat)
    (s : Script) : ofScript settings depth s = .ok (build settings depth s) := by
  simp [ofScript, h]

theorem ofScript_of_checkPatterns {s : Script} (h : checkPatterns s.topics = .ok ())
    (settings : Settings) (depth : Nat) : ofScript settings depth s = .ok (build settings depth s) := by
  unfold ofScript
  split
  · rw [h]
    rfl
  · rfl

theorem checkPatterns_of_ofScript {settings : Settings} (hstrict : settings.strict = true)
    {depth : Nat} {s : Script} {p : Playbook} (h : ofScript settings depth s = .ok p) :
    checkPatterns s.topics = .ok () := by
  rw [ofScript, if_pos hstrict] at h
  cases hc : checkPatterns s.topics with
  | error fault =>
    rw [hc] at h
    cases h
  | ok _ => rfl

private theorem lookup_map_keys {α β : Type} (f : Text → β) (es : List (Text × α)) (name : Text) :
    ((es.map Prod.fst).map fun key => (key, f key)).lookup name =
      (es.lookup name).map fun _ => f name := by
  induction es with
  | nil => rfl
  | cons e es ih =>
    obtain ⟨key, value⟩ := e
    by_cases h : name = key
    · subst h
      simp
    · have h' : (name == key) = false := by simpa using h
      simpa [List.lookup_cons, h'] using ih

/-- Exactly the topics of the script are ranked, each by its pool. -/
theorem find?_ranked (settings : Settings) (depth : Nat) (s : Script) (name : Text) :
    (build settings depth s).ranked.find? name =
      (s.topics.find? name).map fun _ => Entry.ranked (s.topics.pool depth name) :=
  lookup_map_keys (fun key => Entry.ranked (s.topics.pool depth key)) s.topics.entries name

/-- Where a script substitutes nothing, messages are compared as they are. -/
theorem entries_substitution {s : Script} (h : s.substitutions.entries = []) (settings : Settings)
    (depth : Nat) : (build settings depth s).canon.substitution.entries = [] := by
  simp [build, Substitution.ofTable, Substitution.keep, h]

end Dialogue.Playbook
