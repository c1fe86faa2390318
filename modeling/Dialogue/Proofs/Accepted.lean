import Dialogue.Proofs.Checked
import Dialogue.Proofs.HotLoad
import Dialogue.Proofs.Trigger

/-! What a strict reader lets through. It counts the brackets of a line and leaves their order to
the sorting, so of a pattern whose brackets it could count nothing but their order is left to go
wrong. -/
namespace Dialogue

open Text

theorem Document.has_iff {doc : Document} {call : Text × Option Text} : doc.Has call ↔
    ∃ part ∈ doc.topics.entries, ∃ r ∈ part.2.rules, (r.pattern, r.previous) = call := by
  rw [Has]
  simp only [Topic.calls, List.mem_map]

/-- Both patterns pass the check. -/
def Passes (call : Text × Option Text) : Prop :=
  Pattern.check call.1 = .ok () ∧ ∀ q, call.2 = some q → Pattern.check q = .ok ()

namespace Playbook

theorem wellFormed_iff {r : Rule} : WellFormed r ↔ Passes (r.pattern, r.previous) := by
  rw [WellFormed, Passes, checkPattern_eq_ok]
  refine and_congr_right fun _ => forall_congr' fun q => ?_
  rw [checkPattern_eq_ok]
  exact Iff.rfl

/-- A strict bot that has loaded nothing else sorts a document if all its patterns pass. -/
theorem ofScript_merge_iff {settings : Settings} (hstrict : settings.strict = true) (depth : Nat)
    (doc : Document) : (∃ p, ofScript settings depth (({} : Script).merge doc) = .ok p) ↔
      ∀ call, doc.Has call → Passes call := by
  have hholds : ∀ r, (({} : Script).merge doc).topics.Holds r ↔
      ∃ part ∈ doc.topics.entries, r ∈ part.2.rules := by
    intro r
    rw [Topics.holds_merge]
    refine or_iff_right ?_
    rintro ⟨name, t, ht, -⟩
    cases ht
  have hcheck : checkPatterns (({} : Script).merge doc).topics = .ok () ↔
      ∀ call, doc.Has call → Passes call := by
    rw [checkPatterns_eq_ok_iff_holds]
    constructor
    · intro h call hcall
      obtain ⟨part, hpart, r, hr, rfl⟩ := Document.has_iff.mp hcall
      exact wellFormed_iff.mp (h r ((hholds r).mpr ⟨part, hpart, hr⟩))
    · intro h r hr
      obtain ⟨part, hpart, hr⟩ := (hholds r).mp hr
      exact wellFormed_iff.mpr (h _ (Document.has_iff.mpr ⟨part, hpart, r, hr, rfl⟩))
  rw [← hcheck]
  constructor
  · rintro ⟨p, hp⟩
    exact checkPatterns_of_ofScript hstrict hp
  · intro h
    exact ⟨_, ofScript_of_checkPatterns h settings depth⟩

end Playbook

/-- A strict reader lets only triggers through whose brackets are even in number on the line on
which they begin, and the same goes for what rules look back with. If continuations are even as well,
and so is what a pattern hides, the pattern passes the check just if its brackets are in order. A
document can be sorted just if all its patterns pass. -/
theorem accepted_iff_orderly {settings : Settings} {source code : Text} {doc : Document}
    (hstrict : settings.strict = true) (h : Document.ofText settings source code = .ok doc) :
    (∀ call, doc.Has call → ∃ line more,
      Reading.Origin settings (pieces (· = '\n') code) line call ∧ call.1 = line ++ more ∧
        (Paired more → Paired (Pattern.hidden call.1) →
          (Pattern.check call.1 = .ok () ↔ Pattern.Orderly call.1)) ∧
        ∀ q, call.2 = some q → ¬ has "//" q → ¬ has "*/" q → Paired (Pattern.hidden q) →
          (Pattern.check q = .ok () ↔ Pattern.Orderly q)) ∧
    ∀ depth, (∃ p, Playbook.ofScript settings depth (({} : Script).merge doc) = .ok p) ↔
      ∀ call, doc.Has call → Passes call := by
  refine ⟨fun call hcall => ?_, fun depth => Playbook.ofScript_merge_iff hstrict depth doc⟩
  obtain ⟨r, hr, rfl⟩ := Answering.ok_of_map h
  rcases Reading.origin_of_steps hstrict hr hcall with ⟨e, he, -⟩ | ⟨line, horigin⟩
  · cases he
  · obtain ⟨raw, following, rest, joiner, -, -, -, hgather⟩ := horigin.trigger
    obtain ⟨more, hmore⟩ := Reading.gather_append '+' joiner following line
    rw [hgather] at hmore
    refine ⟨line, more, horigin, hmore, fun hpaired hhidden => ?_,
      fun q hq hslashes hstar hhidden => ?_⟩
    · refine Pattern.check_eq_ok_iff (fun b => ?_) hhidden
      have hline := Command.paired_of_check (Or.inl rfl) horigin.checked b
      rw [hmore, List.count_append, List.count_append, hline, hpaired b]
    · have hcheck := horigin.previous q hq hslashes hstar
      exact Pattern.check_eq_ok_iff (Command.paired_of_check (Or.inr rfl) hcheck) hhidden

def asked : Text :=
  "+ [hello] (<bot name>|it){weight=2} a\\(b\\)\n^ (again|please)\n% how (are|were) you\n- Fine.\n"

def askedDocument : Document where
  topics := ⟨[("random", { rules := [
    { pattern := "[hello] (<bot name>|it){weight=2} a\\(b\\)(again|please)"
      previous := some "how (are|were) you"
      replies := ["Fine."] }] })]⟩

theorem ofText_asked : Document.ofText .basic "" asked = .ok askedDocument :=
  Answering.ok_of_toOption (by decide +kernel)

/-- The trigger is continued and hides brackets, and its rule looks back. -/
theorem asked_orderly : ∃ call, askedDocument.Has call ∧ call.2 ≠ none ∧ Passes call ∧
    ∃ p, Playbook.ofScript .basic 50 (({} : Script).merge askedDocument) = .ok p := by
  have hpaired : ∀ {t : Text}, (t.count '(' = t.count ')' ∧ t.count '[' = t.count ']') → Paired t := by
    rintro t ⟨hround, hsquare⟩ b
    cases b with
    | round => exact hround
    | square => exact hsquare
  obtain ⟨hcalls, hsort⟩ := accepted_iff_orderly rfl ofText_asked
  have hpasses : ∀ call, askedDocument.Has call → Passes call := by
    rintro call ⟨e, he, hcall⟩
    obtain rfl := List.mem_singleton.mp he
    obtain rfl := List.mem_singleton.mp hcall
    obtain ⟨line, more, horigin, hmore, htrigger, hprevious⟩ :=
      hcalls _ ⟨_, List.mem_singleton_self _, List.mem_singleton_self _⟩
    have hline := Command.paired_of_check (Or.inl rfl) horigin.checked
    have hwhole : Paired (line ++ more) := hmore ▸ hpaired (by decide)
    have hcontinued : Paired more := by
      intro b
      have hb := hwhole b
      rw [List.count_append, List.count_append, hline b] at hb
      exact Nat.add_left_cancel hb
    constructor
    · exact (htrigger hcontinued (hpaired (by decide +kernel))).mpr (by decide +kernel)
    · rintro q ⟨⟩
      exact (hprevious _ rfl (by decide) (by decide) (hpaired (by decide +kernel))).mpr
        (by decide +kernel)
  refine ⟨_, ⟨_, List.mem_singleton_self _, List.mem_singleton_self _⟩, by decide, ?_,
    (hsort 50).mpr hpasses⟩
  exact hpasses _ ⟨_, List.mem_singleton_self _, List.mem_singleton_self _⟩

/-- Texts that a strict reader lets through although a pattern does not pass: brackets that are even
in number but not in order, a continuation that opens one, a bracket after a backslash or in a tag,
tags whose signs are in the wrong order, and lines to look back with that pass for comments or have
one. -/
def misread : List Text :=
  ["+ )a(\n- x\n", "+ a\n^ (b\n- x\n", "+ a\\(b)\n- x\n", "+ (<a)>\n- x\n", "+ >a<\n- x\n",
    "+ a\n% (b */ c\n- x\n", "+ a\n% b // (c\n- x\n"]

/-- A strict reader and a strict bot do not agree on them. -/
theorem misread_accepted : Pattern.check ")a(" = .error (.unmatched ')') ∧
    ∀ code ∈ misread, ∃ doc, Document.ofText .basic "" code = .ok doc ∧
      ∃ fault, Playbook.ofScript .basic 50 (({} : Script).merge doc) = .error fault := by
  have hall : ∀ code ∈ misread, (Document.ofText .basic "" code).toOption.any fun doc =>
      !(Playbook.checkPatterns (({} : Script).merge doc).topics).isOk := by
    decide +kernel
  refine ⟨by decide, fun code hcode => ?_⟩
  obtain ⟨doc, hdoc, hcheck⟩ := (Option.any_eq_true _ _).mp (hall code hcode)
  refine ⟨doc, Answering.ok_of_toOption hdoc, ?_⟩
  cases hp : Playbook.ofScript .basic 50 (({} : Script).merge doc) with
  | error fault => exact ⟨fault, rfl⟩
  | ok p =>
    rw [Playbook.checkPatterns_of_ofScript rfl hp] at hcheck
    cases hcheck

end Dialogue
