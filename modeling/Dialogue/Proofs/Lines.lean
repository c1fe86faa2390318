import Dialogue.Proofs.Trigger

/-! How reading depends on lines. What stands below a line matters only as far as it continues the
line, and the numbers of lines matter only to faults. -/
namespace Dialogue

/-- The fault without the number of its line. -/
def Fault.unnumbered : Fault → Fault
  | .line source _ cause => .line source 0 cause
  | .version source _ found => .version source 0 found
  | fault => fault

/-- The results are the same, up to the number of the line at fault. -/
def UpToNumber {α : Type} (x y : Except Fault α) : Prop :=
  x.mapError Fault.unnumbered = y.mapError Fault.unnumbered

namespace UpToNumber

variable {α β : Type} {x y : Except Fault α}

theorem refl (x : Except Fault α) : UpToNumber x x := rfl

theorem eq_ok {v : α} (h : UpToNumber x (.ok v)) : x = .ok v := by
  cases x with
  | error fault => cases h
  | ok w =>
    cases h
    rfl

theorem bind {f g : α → Except Fault β} (h : UpToNumber x y)
    (hfg : ∀ v, y = .ok v → UpToNumber (f v) (g v)) : UpToNumber (x >>= f) (y >>= g) := by
  cases y with
  | ok v =>
    rw [h.eq_ok]
    exact hfg v rfl
  | error fault =>
    cases x with
    | ok v => cases h
    | error fault' =>
      have hsame : fault'.unnumbered = fault.unnumbered := Except.error.inj h
      exact congrArg Except.error hsame

theorem map {f : α → β} (h : UpToNumber x y) : UpToNumber (x.map f) (y.map f) := by
  cases y with
  | ok v =>
    rw [h.eq_ok]
    exact refl _
  | error fault =>
    cases x with
    | ok v => cases h
    | error fault' =>
      have hsame : fault'.unnumbered = fault.unnumbered := Except.error.inj h
      exact congrArg Except.error hsame

theorem toOption (h : UpToNumber x y) : x.toOption = y.toOption := by
  have hmapped : ∀ w : Except Fault α, (w.mapError Fault.unnumbered).toOption = w.toOption := by
    rintro (_ | _) <;> rfl
  rw [← hmapped x, ← hmapped y]
  exact congrArg Except.toOption h

end UpToNumber

namespace Reading

open Text

variable {settings : Settings} {source : Text} {following following' : List Text}

/-! ### One line -/

theorem define_number (n m : Nat) (line : Text) (r : Reading) :
    UpToNumber (define source n line r) (define source m line r) := by
  unfold define
  dsimp only
  split
  · split <;> exact rfl
  · exact .refl _

theorem command_number (n m : Nat) (sign : Char) (line : Text) (previous : Option Text)
    (r : Reading) : UpToNumber (command settings source n sign line previous r)
      (command settings source m sign line previous r) := by
  unfold command
  split
  · exact define_number n m line r
  all_goals exact .refl _

/-- The lines continue any line above them in the same way. -/
def SameBelow (following following' : List Text) : Prop :=
  ∀ sign joiner line, gather sign joiner following line = gather sign joiner following' line

theorem commandLine_congr (h : SameBelow following following') (n m : Nat) (sign : Char)
    (rest : Text) (r : Reading) :
    UpToNumber (commandLine settings source n sign rest following r)
      (commandLine settings source m sign rest following' r) := by
  unfold commandLine
  simp only [h sign]
  split
  · exact rfl
  · exact command_number n m ..

theorem step_congr (h : SameBelow following following') (n m : Nat) (line : Text) (r : Reading) :
    UpToNumber (step settings source n line following r)
      (step settings source m line following' r) := by
  unfold step
  repeat' split
  all_goals first
    | exact .refl _
    | exact commandLine_congr h n m _ _ r

/-! ### Many lines -/

theorem SameBelow.append (h : SameBelow following following') (lines : List Text) :
    SameBelow (lines ++ following) (lines ++ following') := by
  intro sign joiner line
  induction lines generalizing line with
  | nil => exact h sign joiner line
  | cons next lines ih => simp only [List.cons_append, gather, ih]

theorem steps_number (n m : Nat) (lines : List Text) (r : Reading) :
    UpToNumber (steps settings source n lines r) (steps settings source m lines r) := by
  induction lines generalizing n m r with
  | nil => exact .refl _
  | cons line lines ih =>
    exact (step_congr (fun _ _ _ => rfl) n m _ r).bind fun r _ => ih (n + 1) (m + 1) r

/-- Reads the first lines, which have others below them. -/
def above (settings : Settings) (source : Text) (below : List Text) :
    Nat → List Text → Reading → Except Fault Reading
  | _, [], r => .ok r
  | number, line :: lines, r => do
    above settings source below (number + 1) lines
      (← step settings source number (trim line) (lines ++ below) r)

theorem steps_append (n : Nat) (lines below : List Text) (r : Reading) :
    steps settings source n (lines ++ below) r =
      above settings source below n lines r >>= steps settings source (n + lines.length) below := by
  induction lines generalizing n r with
  | nil => rfl
  | cons line lines ih =>
    rw [List.cons_append, steps, above, bind_assoc]
    refine bind_congr fun r' => ?_
    rw [ih, List.length_cons, Nat.add_assoc, Nat.add_comm 1]

theorem above_congr (h : SameBelow following following') (n m : Nat) (lines : List Text)
    (r : Reading) : UpToNumber (above settings source following n lines r)
      (above settings source following' m lines r) := by
  induction lines generalizing n m r with
  | nil => exact .refl _
  | cons line lines ih =>
    exact (step_congr (h.append lines) n m _ r).bind fun r _ => ih (n + 1) (m + 1) r

/-- Lines that read the same and continue what is above in the same way may take each other's
place, if that is so in the state in which they are reached. -/
theorem steps_append_congr (h : SameBelow following following') {n m : Nat} (lines : List Text)
    {r : Reading} (hsteps : ∀ k l r', above settings source following' m lines r = .ok r' →
      UpToNumber (steps settings source k following r') (steps settings source l following' r')) :
    UpToNumber (steps settings source n (lines ++ following) r)
      (steps settings source m (lines ++ following') r) := by
  rw [steps_append, steps_append]
  exact (above_congr h n m lines r).bind fun r' hr' => hsteps _ _ r' hr'

end Reading

end Dialogue
