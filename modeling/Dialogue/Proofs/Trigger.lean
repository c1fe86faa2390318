import Dialogue.Proofs.Brackets
import Dialogue.Proofs.Process

/-! Where triggers come from. A strict reader has checked the line that a trigger begins on and
the line that its rule looks back with, as far as it took them for commands, but not the lines by
which a trigger is continued. -/
namespace Dialogue

namespace Text

theorem has_iff {mark t : Text} : has mark t = true ↔ mark <:+: t := by
  rw [has]
  induction t with
  | nil =>
    rw [cut?, List.infix_nil]
    split <;> simp_all
  | cons c t ih =>
    rw [cut?, List.infix_cons_iff]
    cases hp : mark.isPrefixOf? (c :: t) with
    | some rest =>
      have happend := List.isPrefixOf?_eq_some_iff_append_eq.mp hp
      exact ⟨fun _ => Or.inl ⟨rest, happend⟩, fun _ => rfl⟩
    | none =>
      have hnot : ¬ mark <+: c :: t := by
        rintro ⟨rest, hrest⟩
        rw [List.isPrefixOf?_eq_some_iff_append_eq.mpr hrest] at hp
        cases hp
      rw [Option.isSome_map, ih]
      exact ⟨Or.inr, fun h => h.resolve_left hnot⟩

end Text

namespace Command

open Text

theorem of_firstFault {faults : List (Bool × SyntaxFault)} (h : firstFault faults = none) :
    ∀ f ∈ faults, f.1 = false := by
  induction faults with
  | nil => exact fun _ hf => nomatch hf
  | cons f faults ih =>
    rw [firstFault] at h
    split at h
    · cases h
    · rename_i hf
      exact List.forall_mem_cons.mpr ⟨Bool.eq_false_iff.mpr hf, ih h⟩

/-- The reader counts the brackets of a line. -/
theorem paired_of_check {settings : Settings} {sign : Char} {t : Text}
    (hsign : sign = '+' ∨ sign = '%') (h : check settings sign t = none) : Paired t := by
  have hfaults : firstFault (triggerFaults settings.utf8 t) = none := by
    rcases hsign with rfl | rfl <;> exact h
  have hnone := of_firstFault hfaults
  rw [triggerFaults, List.forall_mem_append] at hnone
  have hround : isBalanced '(' ')' t = true := by
    simpa using hnone.2 _ List.mem_cons_self
  have hsquare : isBalanced '[' ']' t = true := by
    simpa using hnone.2 _ (List.mem_cons_of_mem _ List.mem_cons_self)
  intro b
  cases b with
  | round => exact eq_of_beq hround
  | square => exact eq_of_beq hsquare

end Command

theorem Command.eq_of_split? {line rest : Text} {sign : Char}
    (h : Command.split? line = some (sign, rest)) : line = sign :: rest := by
  unfold Command.split? at h
  split at h
  · cases h
    rfl
  · cases h

/-! ### Documents -/

/-- What asks for a rule: its trigger, and what it looks back at. -/
def Topic.calls (t : Topic) : List (Text × Option Text) :=
  t.rules.map fun r => (r.pattern, r.previous)

def Document.Has (doc : Document) (call : Text × Option Text) : Prop :=
  ∃ e ∈ doc.topics.entries, call ∈ e.2.calls

namespace Table

variable {β : Type}

theorem mem_alter {t : Table β} {key : Text} {absent : β} {f : β → β} {e : Text × β}
    (h : e ∈ (t.alter key absent f).entries) :
    e ∈ t.entries ∨ ∃ v, (v = absent ∨ (key, v) ∈ t.entries) ∧ e.2 = f v := by
  obtain ⟨entries⟩ := t
  change e ∈ alterEntry key absent f entries at h
  change e ∈ entries ∨ ∃ v, (v = absent ∨ (key, v) ∈ entries) ∧ e.2 = f v
  induction entries with
  | nil =>
    rw [List.mem_singleton.mp h]
    exact Or.inr ⟨absent, Or.inl rfl, rfl⟩
  | cons first entries ih =>
    obtain ⟨k, v⟩ := first
    rw [alterEntry] at h
    split at h
    · rename_i hk
      subst hk
      rcases List.mem_cons.mp h with rfl | hmem
      · exact Or.inr ⟨v, Or.inr List.mem_cons_self, rfl⟩
      · exact Or.inl (List.mem_cons_of_mem _ hmem)
    · rcases List.mem_cons.mp h with rfl | hmem
      · exact Or.inl List.mem_cons_self
      · rcases ih hmem with hold | ⟨w, hw, he⟩
        · exact Or.inl (List.mem_cons_of_mem _ hold)
        · exact Or.inr ⟨w, hw.imp_right (List.mem_cons_of_mem _), he⟩

end Table

namespace Document

variable {doc : Document} {name : Text} {f : Topic → Topic} {call : Text × Option Text}

/-- A change of a topic adds only the calls that it adds to the topic. -/
theorem has_alterTopic (new : List (Text × Option Text))
    (hf : ∀ t, (f t).calls ⊆ t.calls ++ new) (h : (doc.alterTopic name f).Has call) :
    doc.Has call ∨ call ∈ new := by
  obtain ⟨e, he, hcall⟩ := h
  rcases Table.mem_alter he with hold | ⟨t, ht, heq⟩
  · exact Or.inl ⟨e, hold, hcall⟩
  · rw [heq] at hcall
    rcases List.mem_append.mp (hf t hcall) with hcalls | hnew
    · rcases ht with rfl | hmem
      · cases hcalls
      · exact Or.inl ⟨_, hmem, hcalls⟩
    · exact Or.inr hnew

end Document

namespace Topic

theorem calls_addEdges (mode : Option Bool) (fields : List Text) (t : Topic) :
    (Reading.addEdges mode fields t).calls = t.calls := by
  induction fields generalizing mode t with
  | nil => rfl
  | cons field fields ih =>
    unfold Reading.addEdges
    split
    · exact ih _ _
    split
    · exact ih _ _
    · rw [ih]
      split <;> rfl

theorem calls_addRule (t : Topic) (r : Rule) :
    (t.addRule r).calls = t.calls ++ [(r.pattern, r.previous)] := List.map_append

theorem calls_alterRule {f : Rule → Rule}
    (hf : ∀ r, (f r).pattern = r.pattern ∧ (f r).previous = r.previous) (t : Topic) (index : Nat) :
    (t.alterRule index f).calls = t.calls := by
  obtain ⟨rules, includes, inherits⟩ := t
  change (rules.modify index f).map (fun r => (r.pattern, r.previous)) =
    rules.map fun r => (r.pattern, r.previous)
  induction rules generalizing index with
  | nil => cases index <;> rfl
  | cons r rules ih =>
    cases index with
    | zero => rw [List.modify_zero_cons, List.map_cons, (hf r).1, (hf r).2, List.map_cons]
    | succ index => rw [List.modify_succ_cons, List.map_cons, ih, List.map_cons]

end Topic

/-! ### Lines -/

namespace Reading

open Text

variable {settings : Settings} {source : Text} {number : Nat} {r r' : Reading}
  {call : Text × Option Text}

/-- Commands are read here. -/
structure Open (r : Reading) : Prop where
  inComment : r.inComment = false
  object : r.object = none

theorem has_define {line : Text} (h : define source number line r = .ok r')
    (hc : r'.document.Has call) : r.document.Has call := by
  unfold define at h
  dsimp only at h
  split at h
  · split at h
    · cases h
    · cases h
      exact hc
  split at h
  · cases h
    exact hc
  split at h
  · cases h
    split at hc <;> exact hc
  · cases h
    unfold Document.define at hc
    repeat' split at hc
    all_goals exact hc

theorem has_openLabel {foldCase : Bool} {line : Text}
    (hc : (openLabel foldCase line r).document.Has call) : r.document.Has call := by
  unfold openLabel at hc
  dsimp only at hc
  split at hc
  · have halter := Document.has_alterTopic [] (fun t => by
      rw [Topic.calls_addEdges, List.append_nil]
      exact List.Subset.refl _) hc
    exact halter.resolve_right (List.not_mem_nil)
  split at hc <;> exact hc

theorem has_respond {f : Rule → Rule}
    (hf : ∀ r, (f r).pattern = r.pattern ∧ (f r).previous = r.previous)
    (hc : (respond f r).document.Has call) : r.document.Has call := by
  unfold respond at hc
  split at hc
  · rename_i position _
    have halter := Document.has_alterTopic [] (fun t => by
      rw [Topic.calls_alterRule hf, List.append_nil]
      exact List.Subset.refl _) hc
    exact halter.resolve_right (List.not_mem_nil)
  · exact hc

theorem has_addTrigger {line : Text} {previous : Option Text}
    (hc : (addTrigger line previous r).document.Has call) :
    r.document.Has call ∨ call = (line, previous) := by
  have halter := Document.has_alterTopic [(line, previous)] (fun t => by
    rw [Topic.calls_addRule]
    exact List.Subset.refl _) hc
  exact halter.imp_right List.mem_singleton.mp

/-- Only triggers bring rules. -/
theorem has_command {sign : Char} {line : Text} {previous : Option Text}
    (h : command settings source number sign line previous r = .ok r')
    (hc : r'.document.Has call) :
    r.document.Has call ∨ sign = '+' ∧ call = (line, previous) ∧ r' = addTrigger line previous r := by
  unfold command at h
  split at h
  · exact Or.inl (has_define h hc)
  · cases h
    exact Or.inl (has_openLabel hc)
  · cases h
    refine Or.inl ?_
    unfold closeLabel at hc
    repeat' split at hc
    all_goals exact hc
  · cases h
    exact (has_addTrigger hc).imp_right fun hcall => ⟨rfl, hcall, rfl⟩
  · cases h
    refine Or.inl (has_respond ?_ hc)
    exact fun _ => ⟨rfl, rfl⟩
  · cases h
    refine Or.inl (has_respond ?_ hc)
    exact fun _ => ⟨rfl, rfl⟩
  · cases h
    refine Or.inl (has_respond ?_ hc)
    exact fun _ => ⟨rfl, rfl⟩
  · cases h
    exact Or.inl hc

/-- The line that a strict reader checks. -/
def checkedLine (settings : Settings) (sign : Char) (rest : Text) : Text :=
  if settings.foldCase ∧ sign = '+' then lower (withoutComment rest) else withoutComment rest

theorem of_commandLine (hstrict : settings.strict = true) {sign : Char} {rest : Text}
    {following : List Text}
    (h : commandLine settings source number sign rest following r = .ok r') :
    Command.check settings sign (checkedLine settings sign rest) = none ∧
      ∃ line previous, command settings source number sign line previous r = .ok r' ∧
        (sign ≠ '^' → gather sign (r.joiner.getD settings.joiner) following
          (checkedLine settings sign rest) = (line, previous)) := by
  unfold commandLine at h
  dsimp only at h
  rw [if_pos hstrict] at h
  split at h
  · cases h
  · rename_i hcheck
    refine ⟨hcheck, _, _, h, fun hsign => ?_⟩
    rw [if_neg hsign]
    rfl

/-- What a line brings, if it brings a rule, has been checked as far as it stands on the line. -/
theorem has_step (hstrict : settings.strict = true) {line : Text} {following : List Text}
    (h : step settings source number line following r = .ok r') (hc : r'.document.Has call) :
    r.document.Has call ∨ (r'.Open ∧ ∃ rest joiner, Command.split? line = some ('+', rest) ∧
      Command.check settings '+' (checkedLine settings '+' rest) = none ∧
        gather '+' joiner following (checkedLine settings '+' rest) = call) := by
  unfold step at h
  split at h
  · cases h
    exact Or.inl hc
  split at h
  · cases h
    refine Or.inl ?_
    unfold objectLine at hc
    dsimp only at hc
    repeat' split at hc
    all_goals exact hc
  rename_i hobject
  split at h
  · cases h
    exact Or.inl hc
  split at h
  · cases h
    exact Or.inl hc
  split at h
  · cases h
    exact Or.inl hc
  split at h
  · cases h
    exact Or.inl hc
  rename_i hcomment
  split at h
  · rename_i sign rest hsplit
    obtain ⟨hcheck, line', previous, hcommand, hgather⟩ := of_commandLine hstrict h
    rcases has_command hcommand hc with hold | ⟨rfl, hcall, hadd⟩
    · exact Or.inl hold
    · refine Or.inr ⟨?_, rest, r.joiner.getD settings.joiner, hsplit, hcheck, ?_⟩
      · rw [hadd]
        exact ⟨Bool.eq_false_iff.mpr hcomment, hobject⟩
      · rw [hcall]
        exact hgather (by decide)
  · cases h
    exact Or.inl hc

/-! ### What a rule looks back with -/

theorem step_of_open (ho : r.Open) (line : Text) (following : List Text) :
    step settings source number line following r =
      if line = [] then .ok r
      else if List.isPrefixOf ("//" : Text) line then .ok r
      else if List.isPrefixOf ("/*" : Text) line then .ok { r with inComment := !has "*/" line }
      else if has "*/" line then .ok { r with inComment := false }
      else match Command.split? line with
        | some (sign, rest) => commandLine settings source number sign rest following r
        | none => .ok r := by
  rw [step, ho.object, ho.inComment]
  rfl

theorem commandLine_continuation {rest : Text} {following : List Text}
    (h : commandLine settings source number '^' rest following r = .ok r') : r' = r := by
  unfold commandLine at h
  dsimp only at h
  split at h
  · cases h
  · cases h
    rfl

/-- Continuations and lines that are no commands leave the reader where it is. -/
theorem Open.step (ho : r.Open) {line : Text} {following : List Text}
    (hline : ∀ sign rest, Command.split? line = some (sign, rest) → sign = '^')
    (h : Reading.step settings source number line following r = .ok r') : r'.Open := by
  rw [step_of_open ho] at h
  split at h
  · cases h
    exact ho
  split at h
  · cases h
    exact ho
  split at h
  · rename_i hcomment
    obtain ⟨t, rfl⟩ := List.isPrefixOf_iff_prefix.mp hcomment
    exact absurd (hline _ _ rfl) (by decide)
  split at h
  · cases h
    exact ⟨rfl, ho.object⟩
  split at h
  · rename_i sign rest hsplit
    obtain rfl := hline sign rest hsplit
    rw [commandLine_continuation h]
    exact ho
  · cases h
    exact ho

theorem check_of_step (hstrict : settings.strict = true) (ho : r.Open) {line rest : Text}
    {following : List Text} (hsplit : Command.split? line = some ('%', rest))
    (hstar : ¬ has "*/" line) (h : Reading.step settings source number line following r = .ok r') :
    Command.check settings '%' (withoutComment rest) = none := by
  have hline := Command.eq_of_split? hsplit
  rw [step_of_open ho, hsplit] at h
  rw [hline] at hstar h
  rw [if_neg (List.cons_ne_nil _ _), if_neg (by simp), if_neg (by simp), if_neg hstar] at h
  have hcheck := (of_commandLine hstrict h).1
  rw [checkedLine, if_neg (by simp)] at hcheck
  exact hcheck

theorem withoutComment_eq_trim {t : Text} (h : ¬ has "//" (trim t)) : withoutComment t = trim t := by
  have hcut : cut? " // " t = none := by
    rw [← Option.not_isSome_iff_eq_none]
    intro hsome
    have hmark : (" // " : Text) <:+: t := has_iff.mp hsome
    have hslashes : ("//" : Text) <:+: t := List.IsInfix.trans ⟨[' '], [' '], rfl⟩ hmark
    exact h (has_iff.mpr (infix_trim (List.all_iff_forall_prop.mp (by decide)) hslashes))
  rw [withoutComment, hcut]
  rfl

/-- What a rule looks back with has been checked, unless something hid the line. -/
theorem check_of_gather (hstrict : settings.strict = true) {lines : List Text} (ho : r.Open)
    (h : steps settings source number lines r = .ok r') {joiner : Joiner} {line pattern q : Text}
    (hg : gather '+' joiner lines line = (pattern, some q)) (hslashes : ¬ has "//" q)
    (hstar : ¬ has "*/" q) : Command.check settings '%' q = none := by
  induction lines generalizing number r line with
  | nil => cases hg
  | cons next following ih =>
    obtain ⟨r₁, hstep, hsteps⟩ := Answering.ok_of_bind h
    unfold gather at hg
    split at hg
    · rename_i hnone
      refine ih (ho.step (fun sign rest hsome => ?_) hstep) hsteps hg
      rw [hnone] at hsome
      cases hsome
    · rename_i sign rest hsplit
      dsimp only at hg
      split at hg
      · rename_i hjoin
        refine ih (ho.step (fun sign' rest' hsome => ?_) hstep) hsteps hg
        rw [hsplit] at hsome
        cases hsome
        exact hjoin.1
      split at hg
      · rename_i hprevious
        rw [if_pos rfl] at hg
        cases hg
        obtain ⟨rfl, hne⟩ := hprevious
        have hline := Command.eq_of_split? hsplit
        have hopen : ¬ has "*/" (trim next) := by
          intro hmark
          rw [hline, has_iff, List.infix_cons_iff] at hmark
          rcases hmark with hprefix | hinfix
          · obtain ⟨t, ht⟩ := hprefix
            cases ht
          · exact hstar (has_iff.mpr (infix_trim (List.all_iff_forall_prop.mp (by decide)) hinfix))
        rw [← withoutComment_eq_trim hslashes]
        exact check_of_step hstrict ho hsplit hopen hstep
      · cases hg

/-- A rule is asked for by a line that has been checked, with what continues it, and by a line that
has been checked as well if nothing hid it. -/
structure Origin (settings : Settings) (lines : List Text) (line : Text)
    (call : Text × Option Text) : Prop where
  trigger : ∃ raw following rest joiner, raw :: following <:+ lines ∧
    Command.split? (trim raw) = some ('+', rest) ∧ line = checkedLine settings '+' rest ∧
      gather '+' joiner following line = call
  checked : Command.check settings '+' line = none
  previous : ∀ q, call.2 = some q → ¬ has "//" q → ¬ has "*/" q →
    Command.check settings '%' q = none

theorem Origin.cons {lines : List Text} {line : Text} (h : Origin settings lines line call)
    (first : Text) : Origin settings (first :: lines) line call := by
  obtain ⟨raw, following, rest, joiner, hsuffix, htrigger⟩ := h.trigger
  exact { h with trigger := ⟨raw, following, rest, joiner, hsuffix.trans (List.suffix_cons _ _),
    htrigger⟩ }

theorem origin_of_steps (hstrict : settings.strict = true) {lines : List Text}
    (h : steps settings source number lines r = .ok r') (hc : r'.document.Has call) :
    r.document.Has call ∨ ∃ line, Origin settings lines line call := by
  induction lines generalizing number r with
  | nil =>
    cases h
    exact Or.inl hc
  | cons raw following ih =>
    obtain ⟨r₁, hstep, hsteps⟩ := Answering.ok_of_bind h
    rcases ih hsteps with hhas | ⟨line, horigin⟩
    · rcases has_step hstrict hstep hhas with hold | ⟨hopen, rest, joiner, hsplit, hcheck, hgather⟩
      · exact Or.inl hold
      · refine Or.inr ⟨checkedLine settings '+' rest, ?_, hcheck, fun q hq hslashes hstar => ?_⟩
        · exact ⟨raw, following, rest, joiner, List.suffix_refl _, hsplit, rfl, hgather⟩
        · exact check_of_gather hstrict hopen hsteps (hgather.trans (Prod.ext rfl hq)) hslashes hstar
    · exact Or.inr ⟨line, horigin.cons raw⟩

/-- Continuations only add to a line. -/
theorem gather_append (sign : Char) (joiner : Joiner) (following : List Text) (line : Text) :
    ∃ more, (gather sign joiner following line).1 = line ++ more := by
  induction following generalizing line with
  | nil => exact ⟨[], (List.append_nil line).symm⟩
  | cons next following ih =>
    unfold gather
    split
    · exact ih line
    · dsimp only
      split
      · obtain ⟨more, hmore⟩ := ih _
        exact ⟨_, by rw [hmore, List.append_assoc, List.append_assoc]⟩
      split
      · split
        · exact ⟨[], (List.append_nil line).symm⟩
        · exact ih line
      · exact ⟨[], (List.append_nil line).symm⟩

end Reading

end Dialogue
