import Dialogue.Proofs.Life
import Dialogue.Proofs.LoadOrder

/-! Code that is refused while a reply is made. The reader refuses code before any of it is loaded.
The sorting refuses it after that, and the rule it stumbles over is then there for good. -/
namespace Dialogue

namespace Topics

/-- One of the topics has the rule. -/
def Holds (ts : Topics) (r : Rule) : Prop := ∃ name t, ts.find? name = some t ∧ r ∈ t.rules

variable {ts : Topics} {r : Rule}

/-- Rules are added to those that are there. -/
theorem holds_extend {part : Text × Topic} :
    (ts.extend part).Holds r ↔ ts.Holds r ∨ r ∈ part.2.rules := by
  constructor
  · rintro ⟨name, t, ht, hr⟩
    rw [Topics.extend, Table.find?_alter] at ht
    split at ht
    · cases ht
      rcases List.mem_append.mp hr with hold | hnew
      · cases hf : ts.find? part.1 with
        | none =>
          rw [hf] at hold
          cases hold
        | some t =>
          rw [hf] at hold
          exact Or.inl ⟨part.1, t, hf, hold⟩
      · exact Or.inr hnew
    · exact Or.inl ⟨name, t, ht, hr⟩
  · rintro (⟨name, t, ht, hr⟩ | hr)
    · by_cases hname : name = part.1
      · refine ⟨name, t.merge part.2, ?_, List.mem_append_left _ hr⟩
        rw [Topics.extend, Table.find?_alter, if_pos hname, ← hname, ht]
        rfl
      · refine ⟨name, t, ?_, hr⟩
        rw [Topics.extend, Table.find?_alter, if_neg hname]
        exact ht
    · exact ⟨part.1, _, Table.find?_alter_self _ _ _ _, List.mem_append_right _ hr⟩

theorem holds_merge {s : Script} {doc : Document} : (s.merge doc).topics.Holds r ↔
    s.topics.Holds r ∨ ∃ part ∈ doc.topics.entries, r ∈ part.2.rules := by
  have hall : ∀ (parts : List (Text × Topic)) (ts : Topics),
      (parts.foldl Topics.extend ts).Holds r ↔ ts.Holds r ∨ ∃ part ∈ parts, r ∈ part.2.rules := by
    intro parts
    induction parts with
    | nil => simp
    | cons part parts ih =>
      intro ts
      rw [List.foldl_cons, ih, holds_extend, or_assoc, List.exists_mem_cons_iff]
  exact hall doc.topics.entries s.topics

end Topics

namespace Playbook

theorem checkPatterns_eq_ok_iff_holds {topics : Topics} :
    checkPatterns topics = .ok () ↔ ∀ r, topics.Holds r → WellFormed r := by
  rw [checkPatterns_eq_ok]
  constructor
  · rintro h r ⟨name, t, ht, hr⟩
    exact h name t ht r hr
  · intro h name t ht r hr
    exact h r ⟨name, t, ht, hr⟩

end Playbook

namespace Bot

variable {b c d : Bot}

/-- A strict bot has a rule that it cannot sort. -/
structure Stuck (b : Bot) : Prop where
  strict : b.settings.strict = true
  holds : ∃ r, b.script.topics.Holds r ∧ ¬ Playbook.WellFormed r

theorem Stuck.not_sort (h : b.Stuck) : b.sort ≠ .ok c := by
  intro hsort
  obtain ⟨p, hp, -⟩ := Answering.ok_of_map hsort
  have hcheck := Playbook.checkPatterns_of_ofScript h.strict hp
  obtain ⟨r, hr, hmalformed⟩ := h.holds
  exact hmalformed (Playbook.checkPatterns_eq_ok_iff_holds.mp hcheck r hr)

/-- Nothing else keeps a bot from sorting. -/
theorem stuck_of_sort {fault : Fault} (h : b.sort = .error fault) : b.Stuck := by
  have hcheck : Playbook.checkPatterns b.script.topics ≠ .ok () := by
    intro hok
    rw [sort, Playbook.ofScript_of_checkPatterns hok] at h
    cases h
  refine ⟨?_, ?_⟩
  · by_contra hstrict
    rw [sort, Playbook.ofScript_of_lenient (Bool.eq_false_iff.mpr hstrict)] at h
    cases h
  · by_contra hnone
    refine hcheck (Playbook.checkPatterns_eq_ok_iff_holds.mpr fun r hr => ?_)
    by_contra hmalformed
    exact hnone ⟨r, hr, hmalformed⟩

/-- Rules are never taken away. -/
theorem Change.stuck (h : b.Change c) (hb : b.Stuck) : c.Stuck := by
  cases h with
  | absorb doc =>
    obtain ⟨r, hr, hmalformed⟩ := hb.holds
    exact ⟨hb.strict, r, Topics.holds_merge.mpr (Or.inl hr), hmalformed⟩
  | sort hsort => exact absurd hsort hb.not_sort
  | setVar | setGlobal | setSubstitution | setPerson | onRoster | onCallables =>
    exact ⟨hb.strict, hb.holds⟩

theorem Stuck.later (hb : b.Stuck) (h : b.Later c) : c.Stuck := h.keeps Change.stuck hb

/-- Where code is refused: by the reader, or by the sorting of what was loaded. -/
theorem hotLoad_error_cases {code : Text} {fault : Fault}
    (h : b.hotLoad code = (.error fault, c)) :
    (b.stream code = .error fault ∧ c = b) ∨ (b.stream code = .ok c ∧ c.sort = .error fault) := by
  rw [hotLoad] at h
  split at h
  · rename_i hstream
    cases h
    exact Or.inl ⟨hstream, rfl⟩
  · rename_i loaded hstream
    split at h
    · rename_i hsort
      cases h
      exact Or.inr ⟨hstream, hsort⟩
    · cases h

/-- Replies go on as before after code is refused, and nothing of it is loaded if it is the reader
that refuses it. If it is the sorting, all of it is loaded, and the bot never sorts again. -/
theorem hotLoad_refused {code : Text} {fault : Fault} (h : b.hotLoad code = (.error fault, c)) :
    (c.settings = b.settings ∧ c.roster = b.roster ∧ c.playbook = b.playbook) ∧
    ((b.stream code = .error fault ∧ c = b) ∨
      ∃ doc, Document.ofText b.settings "stream()" code = .ok doc ∧ c = b.absorb doc ∧
        b.settings.strict = true ∧ ∀ d, c.Later d → ∀ e, d.sort ≠ .ok e) ∧
    ∀ d, b.sort = .ok d → ((∃ e, c.sort = .ok e) ↔ ∃ fault, b.stream code = .error fault) := by
  rcases hotLoad_error_cases h with ⟨hstream, rfl⟩ | ⟨hstream, hsort⟩
  · refine ⟨⟨rfl, rfl, rfl⟩, Or.inl ⟨hstream, rfl⟩, fun d hd => ?_⟩
    exact ⟨fun _ => ⟨fault, hstream⟩, fun _ => ⟨d, hd⟩⟩
  · obtain ⟨doc, hdoc, rfl⟩ := Answering.ok_of_map hstream
    have hstuck := stuck_of_sort hsort
    refine ⟨⟨rfl, rfl, rfl⟩, Or.inr ⟨doc, hdoc, rfl, hstuck.strict, ?_⟩, fun d _ => ?_⟩
    · exact fun d hlater e => (hstuck.later hlater).not_sort
    · rw [hsort, hstream]
      exact ⟨fun ⟨_, he⟩ => (nomatch he), fun ⟨_, hother⟩ => (nomatch hother)⟩

/-- A strict bot without a fault. -/
def tidy : Bot where
  settings := .basic
  script := { topics := ⟨[("random", { rules := [{ pattern := "learn", replies := ["Okay."] }] })]⟩ }

/-- The brackets of its trigger are balanced, which is all that the reader looks for. -/
def reversed : Text := "+ )a(\n- x\n"

def reversedDocument : Document where
  topics := ⟨[("random", { rules := [{ pattern := ")a(", replies := ["x"] }] })]⟩

theorem ofText_reversed :
    Document.ofText tidy.settings "stream()" reversed = .ok reversedDocument :=
  Answering.ok_of_toOption (by decide +kernel)

theorem sort_reversed : (tidy.absorb reversedDocument).sort =
    .error (.pattern ")a(" (.malformed (.unmatched ')'))) := by
  have hcheck : Playbook.checkPatterns (tidy.absorb reversedDocument).script.topics =
      .error (.pattern ")a(" (.malformed (.unmatched ')'))) := by
    decide +kernel
  have hstrict : (tidy.absorb reversedDocument).settings.strict = true := rfl
  rw [sort, Playbook.ofScript, if_pos hstrict, hcheck]
  rfl

theorem stream_reversed : tidy.stream reversed = .ok (tidy.absorb reversedDocument) := by
  rw [stream, load, ofText_reversed]
  rfl

theorem hotLoad_reversed : tidy.hotLoad reversed =
    (.error (.pattern ")a(" (.malformed (.unmatched ')'))), tidy.absorb reversedDocument) := by
  rw [hotLoad, stream_reversed]
  dsimp only
  rw [sort_reversed]

theorem sort_tidy : ∃ c, tidy.sort = .ok c := by
  have hcheck : Playbook.checkPatterns tidy.script.topics = .ok () := by
    decide +kernel
  rw [sort, Playbook.ofScript_of_checkPatterns hcheck]
  exact ⟨_, rfl⟩

def unopened : Text := "+ a)\n- x\n"

/-- Brackets in the wrong order spoil the bot for good, a bracket too many does it no harm. -/
theorem tidy_hotLoad_refused :
    (∀ d, (tidy.hotLoad reversed).2.Later d → ∀ e, d.sort ≠ .ok e) ∧
    ∃ fault c, tidy.hotLoad unopened = (.error fault, c) ∧ ∃ d, c.sort = .ok d := by
  obtain ⟨sorted, hsorted⟩ := sort_tidy
  constructor
  · obtain ⟨-, ⟨hrefused, -⟩ | ⟨doc, -, hc, -, hnever⟩, -⟩ := hotLoad_refused hotLoad_reversed
    · rw [stream_reversed] at hrefused
      cases hrefused
    · rw [hotLoad_reversed]
      exact hnever
  · have hread : Document.ofText tidy.settings "stream()" unopened =
        .error (.line "stream()" 1 (.unbalanced "parenthesis")) := by
      decide +kernel
    have hstream : tidy.stream unopened = .error (.line "stream()" 1 (.unbalanced "parenthesis")) := by
      rw [stream, load, hread]
      rfl
    have hload : tidy.hotLoad unopened =
        (.error (.line "stream()" 1 (.unbalanced "parenthesis")), tidy) := by
      rw [hotLoad, hstream]
    have hsorts := (hotLoad_refused hload).2.2 sorted hsorted
    exact ⟨_, tidy, hload, hsorts.mpr ⟨_, hstream⟩⟩

/-- Code that is refused is loaded all the same: a bot that could be sorted cannot be any more. -/
theorem refused_code_stays :
    ∃ fault, tidy.hotLoad reversed = (.error fault, tidy.absorb reversedDocument) ∧
      (tidy.absorb reversedDocument).script ≠ tidy.script ∧ (∃ c, tidy.sort = .ok c) ∧
      (tidy.absorb reversedDocument).sort = .error fault := by
  refine ⟨_, hotLoad_reversed, ?_, sort_tidy, sort_reversed⟩
  decide

end Bot

end Dialogue
