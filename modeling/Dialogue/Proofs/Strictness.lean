import Dialogue.Proofs.Commands

/-! What strictness does to reading. A strict reader and one that is not strict go through the same lines in the
same way, up to the first command that the check finds a fault in. There the strict one stops. -/
namespace Dialogue

open Text

def Settings.strictly (settings : Settings) (strict : Bool) : Settings := { settings with strict }

/-- The line that a fault names. -/
def Fault.lineNumber? : Fault → Option Nat
  | .line _ number _ => some number
  | .version _ number _ => some number
  | _ => none

namespace Written

variable {settings : Settings}

/-- The line as the check sees it. -/
def checked (settings : Settings) (w : Written) : Text :=
  if settings.foldCase ∧ w.sign = '+' then lower w.head else w.head

def fault? (settings : Settings) (w : Written) : Option SyntaxFault :=
  Command.check settings w.sign (w.checked settings)

end Written

namespace Reading

variable {settings : Settings} {source : Text} {number : Nat} {r r' : Reading}

/-- The commands that a reader comes upon, each with the number of its line. The one that stops it is the
last. -/
def numbered (settings : Settings) (source : Text) : Nat → List Text → Reading → List (Nat × Written)
  | _, [], _ => []
  | number, line :: following, r =>
    ((command? settings (trim line) following r).map (number, ·)).toList ++
      match step settings source number (trim line) following r with
      | .error _ => []
      | .ok r' => numbered settings source (number + 1) following r'

/-- The first fault that the check finds in these commands, and the number of its line. -/
def firstFault? (settings : Settings) (lines : List (Nat × Written)) : Option (Nat × SyntaxFault) :=
  lines.findSome? fun (number, w) => (w.fault? settings).map (number, ·)

/-! ### One line -/

section Line

variable {line rest : Text} {following : List Text} {sign : Char} {w : Written} {fault : Fault}

theorem commandLine_strict (settings : Settings) (source : Text) (number : Nat) (sign : Char) (rest : Text)
    (following : List Text) (r : Reading) :
    commandLine (settings.strictly true) source number sign rest following r =
      match (written settings sign rest following r).fault? settings with
      | some fault => .error (.line source number fault)
      | none => commandLine (settings.strictly false) source number sign rest following r := by
  have hcheck : Command.check (settings.strictly true) sign (checkedLine (settings.strictly true) sign rest) =
      (written settings sign rest following r).fault? settings := rfl
  have hstrict : (settings.strictly true).strict = true := rfl
  have hlenient : ¬ (settings.strictly false).strict = true := Bool.false_ne_true
  cases hfault : (written settings sign rest following r).fault? settings with
  | some fault =>
    rw [hfault] at hcheck
    unfold commandLine
    dsimp only
    rw [if_pos hstrict]
    split
    · rename_i fault' hfault'
      cases hfault'.symm.trans hcheck
      rfl
    · rename_i hnone
      cases hnone.symm.trans hcheck
  | none =>
    rw [hfault] at hcheck
    unfold commandLine
    dsimp only
    rw [if_pos hstrict, if_neg hlenient]
    split
    · rename_i fault' hfault'
      cases hfault'.symm.trans hcheck
    · rfl

theorem step_strict (settings : Settings) (source : Text) (number : Nat) (line : Text) (following : List Text)
    (r : Reading) :
    step (settings.strictly true) source number line following r =
      match (command? settings line following r).bind (·.fault? settings) with
      | some fault => .error (.line source number fault)
      | none => step (settings.strictly false) source number line following r := by
  cases hcommand : command? settings line following r with
  | none =>
    rw [step_of_no_command hcommand, step_of_no_command hcommand]
    rfl
  | some w =>
    obtain ⟨sign, rest, -, rfl, hstep⟩ := step_of_command hcommand
    rw [hstep, hstep, commandLine_strict]
    rfl

/-- Nothing but a version that is too new keeps a command from being carried out. -/
theorem version_of_command {line : Text} {previous : Option Text}
    (h : command settings source number sign line previous r = .error fault) :
    ∃ found, fault = .version source number found := by
  unfold command at h
  split at h
  · unfold define at h
    dsimp only at h
    split at h
    · split at h
      · cases h
        exact ⟨_, rfl⟩
      · cases h
    split at h
    · cases h
    split at h
    · cases h
    · cases h
  all_goals cases h

/-- A reader that is not strict is stopped by nothing but a version. -/
theorem version_of_step (h : step (settings.strictly false) source number line following r = .error fault) :
    ∃ found, fault = .version source number found := by
  cases hcommand : command? settings line following r with
  | none =>
    rw [step_of_no_command hcommand] at h
    cases h
  | some w =>
    obtain ⟨sign, rest, -, -, hstep⟩ := step_of_command hcommand
    rw [hstep] at h
    exact version_of_command h

end Line

/-! ### The faults of several commands -/

section Faults

variable {cs : List (Nat × Written)} {e : Nat × Written} {fault : SyntaxFault}

/-- The check finds this fault on this line, and none on a line above it. -/
structure RejectedFirst (settings : Settings) (cs : List (Nat × Written)) (number : Nat)
    (fault : SyntaxFault) : Prop where
  rejected : ∃ w, (number, w) ∈ cs ∧ w.fault? settings = some fault
  accepted : ∀ e ∈ cs, e.1 < number → e.2.fault? settings = none

theorem firstFault?_of_fault (h : e.2.fault? settings = some fault) :
    firstFault? settings (e :: cs) = some (e.1, fault) := by
  simp [firstFault?, h]

theorem firstFault?_of_no_fault (h : e.2.fault? settings = none) :
    firstFault? settings (e :: cs) = firstFault? settings cs := by
  simp [firstFault?, h]

theorem firstFault?_eq_none_iff :
    firstFault? settings cs = none ↔ ∀ e ∈ cs, e.2.fault? settings = none := by
  simp [firstFault?]

theorem firstFault?_eq_some_iff (h : cs.Pairwise (·.1 < ·.1)) :
    firstFault? settings cs = some (number, fault) ↔ RejectedFirst settings cs number fault := by
  induction cs with
  | nil =>
    constructor
    · intro hnone
      cases hnone
    · intro hfirst
      obtain ⟨w, hw, -⟩ := hfirst.rejected
      cases hw
  | cons e cs ih =>
    obtain ⟨hbelow, hcs⟩ := List.pairwise_cons.mp h
    cases hfault : e.2.fault? settings with
    | none =>
      rw [firstFault?_of_no_fault hfault, ih hcs]
      constructor
      · rintro ⟨⟨w, hw, hreject⟩, haccept⟩
        refine ⟨⟨w, List.mem_cons_of_mem _ hw, hreject⟩, fun e' he' hlt => ?_⟩
        rcases List.mem_cons.mp he' with rfl | he'
        · exact hfault
        · exact haccept e' he' hlt
      · rintro ⟨⟨w, hw, hreject⟩, haccept⟩
        refine ⟨⟨w, ?_, hreject⟩, fun e' he' => haccept e' (List.mem_cons_of_mem _ he')⟩
        rcases List.mem_cons.mp hw with rfl | hw
        · cases hfault.symm.trans hreject
        · exact hw
    | some fault' =>
      rw [firstFault?_of_fault hfault]
      constructor
      · intro heq
        cases heq
        refine ⟨⟨e.2, List.mem_cons_self, hfault⟩, fun e' he' hlt => ?_⟩
        rcases List.mem_cons.mp he' with rfl | he'
        · omega
        · have := hbelow e' he'
          omega
      · rintro ⟨⟨w, hw, hreject⟩, haccept⟩
        rcases List.mem_cons.mp hw with rfl | hw
        · rw [hfault] at hreject
          cases hreject
          rfl
        · have hnone := haccept e List.mem_cons_self (hbelow _ hw)
          cases hfault.symm.trans hnone

end Faults

/-! ### All lines -/

variable {lines : List Text} {e : Nat × Written}

/-- What a reader that is not strict has to do with the first line, and with those below it. -/
theorem mem_numbered_cons {line : Text} {following : List Text} :
    e ∈ numbered settings source number (line :: following) r ↔
      (∃ w, command? settings (trim line) following r = some w ∧ e = (number, w)) ∨
        ∃ r', step settings source number (trim line) following r = .ok r' ∧
          e ∈ numbered settings source (number + 1) following r' := by
  rw [numbered, List.mem_append]
  apply or_congr
  · simp only [Option.mem_toList, Option.map_eq_some_iff]
    exact exists_congr fun w => and_congr_right fun _ => eq_comm
  · cases step settings source number (trim line) following r <;> simp

theorem steps_cons (settings : Settings) (source : Text) (number : Nat) (line : Text) (following : List Text)
    (r : Reading) :
    steps settings source number (line :: following) r =
      match step settings source number (trim line) following r with
      | .error fault => .error fault
      | .ok r' => steps settings source (number + 1) following r' := by
  rw [steps]
  cases step settings source number (trim line) following r <;> rfl

/-- The two readers go through all lines in the same way, as far as the strict one gets. -/
theorem steps_strict (settings : Settings) (source : Text) (number : Nat) (lines : List Text) (r : Reading) :
    steps (settings.strictly true) source number lines r =
      match firstFault? settings (numbered (settings.strictly false) source number lines r) with
      | some (n, fault) => .error (.line source n fault)
      | none => steps (settings.strictly false) source number lines r := by
  induction lines generalizing number r with
  | nil => rfl
  | cons line following ih =>
    have hcommand : command? (settings.strictly false) (trim line) following r =
        command? settings (trim line) following r := rfl
    rw [steps_cons, steps_cons, step_strict, numbered, hcommand]
    cases command? settings (trim line) following r with
    | none =>
      dsimp only [Option.bind_none, Option.map_none, Option.toList_none, List.nil_append]
      cases step (settings.strictly false) source number (trim line) following r with
      | error fault => rfl
      | ok r' => exact ih (number + 1) r'
    | some w =>
      dsimp only [Option.bind_some, Option.map_some, Option.toList_some, List.singleton_append]
      cases hfault : w.fault? settings with
      | some fault => rw [firstFault?_of_fault hfault]
      | none =>
        rw [firstFault?_of_no_fault hfault]
        cases step (settings.strictly false) source number (trim line) following r with
        | error fault => rfl
        | ok r' => exact ih (number + 1) r'

theorem le_of_mem_numbered (he : e ∈ numbered settings source number lines r) : number ≤ e.1 := by
  induction lines generalizing number r with
  | nil => cases he
  | cons line following ih =>
    rcases mem_numbered_cons.mp he with ⟨w, -, rfl⟩ | ⟨r', -, he⟩
    · exact le_refl number
    · have := ih he
      omega

theorem numbered_ascending (settings : Settings) (source : Text) (number : Nat) (lines : List Text)
    (r : Reading) : (numbered settings source number lines r).Pairwise (·.1 < ·.1) := by
  induction lines generalizing number r with
  | nil => exact List.Pairwise.nil
  | cons line following ih =>
    rw [numbered]
    refine List.pairwise_append.mpr ⟨?_, ?_, ?_⟩
    · cases command? settings (trim line) following r <;> simp
    · cases step settings source number (trim line) following r with
      | error fault => exact List.Pairwise.nil
      | ok r' => exact ih (number + 1) r'
    · intro first hfirst e he
      obtain ⟨w, -, rfl⟩ := Option.map_eq_some_iff.mp (Option.mem_toList.mp hfirst)
      cases hstep : step settings source number (trim line) following r with
      | error fault =>
        rw [hstep] at he
        cases he
      | ok r' =>
        rw [hstep] at he
        exact le_of_mem_numbered he

/-- The command is the one on the line that the number stands for. -/
theorem line_of_mem_numbered (he : e ∈ numbered settings source number lines r) :
    ∃ raw rest, lines[e.1 - number]? = some raw ∧ Command.split? (trim raw) = some (e.2.sign, rest) ∧
      e.2.head = withoutComment rest := by
  induction lines generalizing number r with
  | nil => cases he
  | cons line following ih =>
    rcases mem_numbered_cons.mp he with ⟨w, hw, rfl⟩ | ⟨r', -, he⟩
    · obtain ⟨sign, rest, hsplit, rfl, -⟩ := step_of_command hw
      exact ⟨line, rest, by simp, hsplit, rfl⟩
    · obtain ⟨raw, rest, hraw, hsplit, hhead⟩ := ih he
      have hle := le_of_mem_numbered he
      have hindex : e.1 - number = e.1 - (number + 1) + 1 := by omega
      rw [hindex]
      exact ⟨raw, rest, hraw, hsplit, hhead⟩

/-- The line with the version is the last one on which a command is read. -/
theorem version_of_steps {fault : Fault}
    (h : steps (settings.strictly false) source number lines r = .error fault) :
    ∃ k found, fault = .version source k found ∧ number ≤ k ∧
      ∀ e ∈ numbered (settings.strictly false) source number lines r, e.1 ≤ k := by
  induction lines generalizing number r with
  | nil => cases h
  | cons line following ih =>
    rw [steps_cons] at h
    cases hstep : step (settings.strictly false) source number (trim line) following r with
    | error fault' =>
      rw [hstep] at h
      cases h
      obtain ⟨found, rfl⟩ := version_of_step hstep
      refine ⟨number, found, rfl, le_refl number, fun e he => ?_⟩
      rcases mem_numbered_cons.mp he with ⟨w, -, rfl⟩ | ⟨r', hr', -⟩
      · exact le_refl number
      · cases hstep.symm.trans hr'
    | ok r₁ =>
      rw [hstep] at h
      obtain ⟨k, found, rfl, hle, hlast⟩ := ih h
      refine ⟨k, found, rfl, by omega, fun e he => ?_⟩
      rcases mem_numbered_cons.mp he with ⟨w, -, rfl⟩ | ⟨r', hr', he⟩
      · dsimp only
        omega
      · cases hstep.symm.trans hr'
        exact hlast e he

end Reading

namespace Document

open Reading

/-- The commands of a text as they are read when none is rejected. -/
def commandLines (settings : Settings) (source code : Text) : List (Nat × Written) :=
  numbered (settings.strictly false) source 1 (pieces (· = '\n') code) {}

theorem ofText_strict (settings : Settings) (source code : Text) :
    ofText (settings.strictly true) source code =
      match firstFault? settings (commandLines settings source code) with
      | some (number, fault) => .error (.line source number fault)
      | none => ofText (settings.strictly false) source code := by
  unfold ofText commandLines
  rw [steps_strict]
  cases firstFault? settings (numbered (settings.strictly false) source 1 (pieces (· = '\n') code) {}) <;>
    rfl

variable {settings : Settings} {source code : Text} {fault : Fault}

theorem commandLines_ascending (settings : Settings) (source code : Text) :
    (commandLines settings source code).Pairwise (·.1 < ·.1) :=
  numbered_ascending _ _ _ _ _

/-- A reader that is not strict gives up on nothing but a version, and a strict one has given up by then. -/
theorem ofText_lenient_error (h : ofText (settings.strictly false) source code = .error fault) :
    ∃ k found, fault = .version source k found ∧ ∃ fault' number,
      ofText (settings.strictly true) source code = .error fault' ∧
        fault'.lineNumber? = some number ∧ number ≤ k := by
  obtain ⟨k, found, rfl, -, hlast⟩ := version_of_steps (Answering.error_of_map h)
  refine ⟨k, found, rfl, ?_⟩
  rw [ofText_strict]
  cases hfirst : firstFault? settings (commandLines settings source code) with
  | none => exact ⟨_, k, h, rfl, le_refl k⟩
  | some first =>
    obtain ⟨number, fault'⟩ := first
    obtain ⟨w, hw, -⟩ :=
      ((firstFault?_eq_some_iff (commandLines_ascending settings source code)).mp hfirst).rejected
    exact ⟨_, number, rfl, rfl, hlast _ hw⟩

theorem ofText_strict_ok_iff {doc : Document} :
    ofText (settings.strictly true) source code = .ok doc ↔
      ofText (settings.strictly false) source code = .ok doc ∧
        ∀ e ∈ commandLines settings source code, e.2.fault? settings = none := by
  rw [ofText_strict, ← firstFault?_eq_none_iff]
  cases firstFault? settings (commandLines settings source code) <;> simp

theorem ofText_strict_line_iff {source' : Text} {number : Nat} {fault : SyntaxFault} :
    ofText (settings.strictly true) source code = .error (.line source' number fault) ↔
      source' = source ∧ RejectedFirst settings (commandLines settings source code) number fault := by
  rw [ofText_strict, ← firstFault?_eq_some_iff (commandLines_ascending settings source code)]
  cases firstFault? settings (commandLines settings source code) with
  | none =>
    constructor
    · intro h
      obtain ⟨k, found, hversion, -⟩ := ofText_lenient_error h
      cases hversion
    · rintro ⟨-, h⟩
      cases h
  | some first =>
    constructor
    · intro h
      cases h
      exact ⟨rfl, rfl⟩
    · rintro ⟨rfl, h⟩
      cases h
      rfl

/-- Strictness does nothing but reject. What a strict reader makes of a text, one that is not strict
makes of it too, and the strict one makes something of it as soon as the check lets each command
pass. A fault of a line is that of the first command that the check finds one in. One that is not
strict finds none of these. What stops it is a version, at which the strict one has stopped too, or
before. -/
theorem strictness_only_rejects (settings : Settings) (source code : Text) :
    let strict := ofText (settings.strictly true) source code
    let lenient := ofText (settings.strictly false) source code
    let commands := commandLines settings source code
    (∀ doc, strict = .ok doc ↔ lenient = .ok doc ∧ ∀ e ∈ commands, e.2.fault? settings = none) ∧
      (∀ source' number fault, strict = .error (.line source' number fault) ↔
        source' = source ∧ RejectedFirst settings commands number fault) ∧
      (∀ fault, lenient = .error fault → ∃ k found, fault = .version source k found ∧
        ∃ fault' number, strict = .error fault' ∧ fault'.lineNumber? = some number ∧ number ≤ k) ∧
      ∀ e ∈ commands, ∃ raw rest, (pieces (· = '\n') code)[e.1 - 1]? = some raw ∧
        Command.split? (trim raw) = some (e.2.sign, rest) ∧ e.2.head = withoutComment rest := by
  refine ⟨fun doc => ofText_strict_ok_iff, fun source' number fault => ofText_strict_line_iff,
    fun fault => ofText_lenient_error, fun e he => line_of_mem_numbered he⟩

/-- The bracket in the comment does not count, and what stands below the version is not read. -/
def outdated : Text := "// greetings (\n+ hello (\n! version = 3.0\n+ [\n"

theorem outdated_stops_at_trigger :
    ofText (({} : Settings).strictly true) "" outdated = .error (.line "" 2 (.unbalanced "parenthesis")) ∧
      ofText (({} : Settings).strictly false) "" outdated = .error (.version "" 3 "3.0") := by
  obtain ⟨-, hline, -⟩ := strictness_only_rejects {} "" outdated
  have hcommands : commandLines {} "" outdated =
      [(2, ⟨'+', "hello (", [], .nothing⟩), (3, ⟨'!', "version = 3.0", [], .nothing⟩)] := by decide +kernel
  constructor
  · apply (hline "" 2 _).mpr
    rw [hcommands]
    exact ⟨rfl, ⟨_, List.mem_cons_self, by decide +kernel⟩, by simp⟩
  · decide +kernel

end Document

end Dialogue
