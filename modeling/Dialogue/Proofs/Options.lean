import Dialogue.Shell.Arguments
import Mathlib.Data.List.Basic

/-! The option with a value. Its value stands in the next argument, or in the same one behind an equals sign.
The one is read as the other, except that the second way drops the option from the front of its value for as
long as it is found there. -/
namespace Dialogue.Shell

open Text

/-! ### The value behind the equals sign -/

/-- The option with its equals sign, a number of times. -/
def marks (n : Nat) : Text := (List.replicate n depthMark).flatten

section Value

variable {value : Text}

theorem marks_succ (n : Nat) : marks (n + 1) = depthMark ++ marks n := by
  simp [marks, List.replicate_succ]

theorem length_marks (n : Nat) : n ≤ (marks n).length := by
  induction n with
  | zero => exact Nat.zero_le _
  | succ n ih =>
    have hmark : depthMark.length = 8 := rfl
    rw [marks_succ, List.length_append]
    omega

theorem go_marks (h : ¬ depthMark <+: value) {n fuel : Nat} (hfuel : n ≤ fuel) :
    valueOf.go fuel (marks n ++ value) = value := by
  induction n generalizing fuel with
  | zero =>
    cases fuel with
    | zero => rfl
    | succ fuel =>
      have hnone : depthMark.isPrefixOf? value = none := by
        rw [Option.eq_none_iff_forall_ne_some]
        intro rest hrest
        exact h ⟨rest, List.isPrefixOf?_eq_some_iff_append_eq.mp hrest⟩
      have hread : valueOf.go (fuel + 1) value = value := by rw [valueOf.go, hnone]
      exact hread
  | succ n ih =>
    cases fuel with
    | zero => omega
    | succ fuel =>
      have hsome : depthMark.isPrefixOf? (marks (n + 1) ++ value) = some (marks n ++ value) := by
        rw [List.isPrefixOf?_eq_some_iff_append_eq, marks_succ, List.append_assoc]
      rw [valueOf.go, hsome]
      exact ih (by omega)

/-- All that stands in front of the value goes. -/
theorem valueOf_marks (h : ¬ depthMark <+: value) (n : Nat) : valueOf (marks n ++ value) = value := by
  apply go_marks h
  have hlength := length_marks n
  rw [List.length_append]
  omega

theorem exists_marks (arg : Text) : ∃ n value, arg = marks n ++ value ∧ ¬ depthMark <+: value := by
  by_cases h : depthMark <+: arg
  · obtain ⟨rest, rfl⟩ := h
    have hshorter : rest.length < (depthMark ++ rest).length := by
      have hmark : depthMark.length = 8 := rfl
      rw [List.length_append]
      omega
    obtain ⟨n, value, hrest, hvalue⟩ := exists_marks rest
    exact ⟨n + 1, value, by rw [marks_succ, List.append_assoc, ← hrest], hvalue⟩
  · exact ⟨0, arg, rfl, h⟩
termination_by arg.length

theorem valueOf_mark (value : Text) : valueOf (depthMark ++ value) = valueOf value := by
  obtain ⟨n, rest, rfl, hrest⟩ := exists_marks value
  have hmore := valueOf_marks hrest (n + 1)
  rw [marks_succ, List.append_assoc] at hmore
  rw [hmore, valueOf_marks hrest n]

/-- A value is left as it is exactly if it does not begin with the option itself. -/
theorem valueOf_eq_self_iff : valueOf value = value ↔ ¬ depthMark <+: value := by
  obtain ⟨n, rest, rfl, hrest⟩ := exists_marks value
  rw [valueOf_marks hrest]
  cases n with
  | zero => simpa [marks] using hrest
  | succ n =>
    have hmark : depthMark.length = 8 := rfl
    constructor
    · intro h
      have hlength := congrArg List.length h
      rw [marks_succ, List.append_assoc, List.length_append, List.length_append] at hlength
      omega
    · intro h
      refine absurd ?_ h
      rw [marks_succ, List.append_assoc]
      exact List.prefix_append _ _

end Value

/-! ### Arguments one after another -/

/-- The option as it is written in one argument. -/
def joined (value : Text) : List Text := [depthMark ++ value]

/-- The option as it is written in two arguments. -/
def parted (value : Text) : List Text := ["--depth", value]

/-- None of these arguments is an option that still waits for its value, so that the next one is read as an
option or as the path. -/
inductive Complete : List Text → Prop where
  | nil : Complete []
  | depth (value : Text) {args : List Text} (h : Complete args) : Complete ("--depth" :: value :: args)
  | other {arg : Text} (hne : arg ≠ "--depth") {args : List Text} (h : Complete args) : Complete (arg :: args)

section Reading

variable {d : Draft} {arg value : Text} {before : List Text}

theorem request_parted (d : Draft) (value : Text) (args : List Text) :
    request d (parted value ++ args) =
      match setDepth d value with
      | .ok d => request d args
      | .error fault => .refused fault := by
  rw [parted, List.cons_append, List.cons_append, List.nil_append, request, if_neg (by decide),
    if_neg (by decide)]
  exact if_pos rfl

/-- An argument that is not the option itself is read without a look at what is behind it. -/
theorem request_other (hne : arg ≠ "--depth") (d : Draft) (args : List Text) :
    request d (arg :: args) =
      if arg = "-h" ∨ arg = "--help" then .help
      else if arg = "-V" ∨ arg = "--version" then .version
      else match flag? d arg with
        | some d => request d args
        | none =>
          if List.isPrefixOf depthMark arg then
            match setDepth d (valueOf arg) with
            | .ok d => request d args
            | .error fault => .refused fault
          else if arg.head? = some '-' then .refused (.unknownOption arg)
          else if d.path.isSome then .refused .secondPath
          else request { d with path := some arg } args := by
  rw [request.eq_def]
  refine ite_congr rfl (fun _ => rfl) fun _ => ite_congr rfl (fun _ => rfl) fun _ => ?_
  exact if_neg hne

/-- The options as they are written where no value is joined to them. -/
def names : List Text :=
  ["--depth", "-h", "--help", "-V", "--version", "--color", "--no-color", "--utf8", "--strict", "--force-case",
    "--debug", "--trace"]

theorem request_of_not_name (h : arg ∉ names) (d : Draft) (args : List Text) :
    request d (arg :: args) =
      if List.isPrefixOf depthMark arg then
        match setDepth d (valueOf arg) with
        | .ok d => request d args
        | .error fault => .refused fault
      else if arg.head? = some '-' then .refused (.unknownOption arg)
      else if d.path.isSome then .refused .secondPath
      else request { d with path := some arg } args := by
  simp only [names, List.mem_cons, not_or] at h
  obtain ⟨hdepth, hh, hhelp, hV, hversion, hcolor, hplain, hutf8, hstrict, hfold, hdebug, htrace, -⟩ := h
  have hflag : flag? d arg = none := by
    rw [flag?, if_neg hcolor, if_neg hplain, if_neg hutf8, if_neg hstrict, if_neg hfold, if_neg hdebug,
      if_neg htrace]
  rw [request_other hdepth, if_neg (not_or.mpr ⟨hh, hhelp⟩), if_neg (not_or.mpr ⟨hV, hversion⟩), hflag]

/-- Behind an equals sign a value is read as if it were the next argument, without the option in front of it. -/
theorem request_joined (d : Draft) (value : Text) (args : List Text) :
    request d (joined value ++ args) = request d (parted (valueOf value) ++ args) := by
  have hprefix : depthMark <+: depthMark ++ value := List.prefix_append _ _
  have hname : depthMark ++ value ∉ names := by
    intro hmem
    have hnone : ∀ option ∈ names, ¬ depthMark <+: option := by decide
    exact hnone _ hmem hprefix
  rw [request_parted, joined, List.cons_append, List.nil_append, request_of_not_name hname,
    if_pos (List.isPrefixOf_iff_prefix.mpr hprefix), valueOf_mark]

/-- What does not begin with a hyphen is the path. -/
theorem request_path (hhead : arg.head? ≠ some '-') (hpath : d.path = none) (args : List Text) :
    request d (arg :: args) = request { d with path := some arg } args := by
  have hname : arg ∉ names := by
    intro hmem
    have hhyphen : ∀ option ∈ names, option.head? = some '-' := by decide
    exact hhead (hhyphen _ hmem)
  have hmark : ¬ List.isPrefixOf depthMark arg = true := by
    intro hprefix
    obtain ⟨rest, rfl⟩ := List.isPrefixOf_iff_prefix.mp hprefix
    exact hhead rfl
  have hsecond : ¬ d.path.isSome = true := by simp [hpath]
  rw [request_of_not_name hname, if_neg hmark, if_neg hhead, if_neg hsecond]

/-- Reading an argument leaves a draft, or settles what is done whatever stands behind it. -/
theorem request_cons (hne : arg ≠ "--depth") (d : Draft) :
    (∃ d', ∀ args, request d (arg :: args) = request d' args) ∨
      ∃ done, ∀ args, request d (arg :: args) = done := by
  simp only [request_other hne]
  by_cases hhelp : arg = "-h" ∨ arg = "--help"
  · exact .inr ⟨.help, fun _ => if_pos hhelp⟩
  simp only [if_neg hhelp]
  by_cases hversion : arg = "-V" ∨ arg = "--version"
  · exact .inr ⟨.version, fun _ => if_pos hversion⟩
  simp only [if_neg hversion]
  cases flag? d arg with
  | some d' => exact .inl ⟨d', fun _ => rfl⟩
  | none =>
    dsimp only
    by_cases hmark : List.isPrefixOf depthMark arg = true
    · simp only [if_pos hmark]
      cases setDepth d (valueOf arg) with
      | ok d' => exact .inl ⟨d', fun _ => rfl⟩
      | error fault => exact .inr ⟨.refused fault, fun _ => rfl⟩
    simp only [if_neg hmark]
    by_cases hunknown : arg.head? = some '-'
    · exact .inr ⟨.refused (.unknownOption arg), fun _ => if_pos hunknown⟩
    simp only [if_neg hunknown]
    by_cases hsecond : d.path.isSome = true
    · exact .inr ⟨.refused .secondPath, fun _ => if_pos hsecond⟩
    simp only [if_neg hsecond]
    exact .inl ⟨{ d with path := some arg }, fun _ => rfl⟩

/-- The same of many arguments, if the last option among them has its value. -/
theorem Complete.read (h : Complete before) (d : Draft) :
    (∃ d', ∀ after, request d (before ++ after) = request d' after) ∨
      ∃ done, ∀ after, request d (before ++ after) = done := by
  induction h generalizing d with
  | nil => exact .inl ⟨d, fun _ => rfl⟩
  | @depth value args h ih =>
    have hread : ∀ after, request d (parted value ++ args ++ after) = _ :=
      fun after => request_parted d value (args ++ after)
    simp only [parted, List.cons_append, List.nil_append] at hread
    simp only [List.cons_append, hread]
    cases setDepth d value with
    | ok d' => exact ih d'
    | error fault => exact .inr ⟨.refused fault, fun _ => rfl⟩
  | other hne h ih =>
    rcases request_cons hne d with ⟨d', hread⟩ | ⟨done, hread⟩
    · simp only [List.cons_append, hread]
      exact ih d'
    · exact .inr ⟨done, fun after => hread _⟩

/-- What is read in the same way whatever came before is read in the same way behind complete arguments. -/
theorem Complete.request_congr (h : Complete before) {args args' after : List Text}
    (hargs : ∀ d, request d (args ++ after) = request d (args' ++ after)) (d : Draft) :
    request d (before ++ args ++ after) = request d (before ++ args' ++ after) := by
  rw [List.append_assoc, List.append_assoc]
  rcases h.read d with ⟨d', hread⟩ | ⟨done, hread⟩
  · rw [hread, hread, hargs]
  · rw [hread, hread]

/-- The option itself is no number. -/
theorem depth?_of_mark (h : depthMark <+: value) : depth? value = none := by
  obtain ⟨rest, rfl⟩ := h
  rfl

end Reading

/-! ### Outcomes -/

/-- The first letter that differs from fault to fault. -/
theorem message_letter (f : UsageFault) : f.message[7]? = some (match f with
    | .depthMissing => '-'
    | .depthInvalid _ => 'i'
    | .unknownOption _ => 'u'
    | .secondPath => 's'
    | .noPath => 'n') := by
  cases f <;> rfl

/-- Faults are told apart by what is said of them. -/
theorem message_injective : Function.Injective UsageFault.message := by
  intro f g h
  have hletter : f.message[7]? = g.message[7]? := by rw [h]
  rw [message_letter, message_letter] at hletter
  cases f with
  | depthMissing => cases g <;> simp at hletter; rfl
  | secondPath => cases g <;> simp at hletter; rfl
  | noPath => cases g <;> simp at hletter; rfl
  | depthInvalid value =>
    cases g with
    | depthInvalid value' =>
      have hvalue := List.append_cancel_left (List.append_cancel_right h)
      rw [hvalue]
    | _ => simp at hletter
  | unknownOption arg =>
    cases g with
    | unknownOption arg' =>
      have harg := List.append_cancel_left (List.append_cancel_right h)
      rw [harg]
    | _ => simp at hletter

/-- The same is done, or the same is said. -/
def Request.SameOutcome : Request → Request → Prop
  | .refused f, .refused g => f.message = g.message
  | a, b => a = b

theorem sameOutcome_iff {a b : Request} : a.SameOutcome b ↔ a = b := by
  cases a <;> cases b <;> simp [Request.SameOutcome, message_injective.eq_iff]

/-- A value that begins with the option is refused. -/
theorem request_parted_mark {value : Text} (h : depthMark <+: value) (d : Draft) (args : List Text) :
    request d (parted value ++ args) = .refused (.depthInvalid value) := by
  rw [request_parted, setDepth, depth?_of_mark h]

/-- Without a path behind it, what is dropped from the value makes another fault, or another text of it. -/
theorem request_joined_ne {value : Text} (h : depthMark <+: value) :
    request {} (joined value ++ []) ≠ request {} (parted value ++ []) := by
  rw [request_joined, request_parted_mark h, request_parted, setDepth]
  cases depth? (valueOf value) with
  | some depth => simp [request]
  | none =>
    have hvalue : valueOf value ≠ value := fun heq => valueOf_eq_self_iff.mp heq h
    simpa using hvalue

/-- The two spellings of the option come to the same for a value that does not begin with the option itself, and
for no other. Such a beginning is dropped from a value in the same argument, and in the next argument it makes the
value a faulty one. -/
theorem depth_spellings (value : Text) :
    (∀ d before after, Complete before →
      (request d (before ++ joined value ++ after)).SameOutcome
        (request d (before ++ parted (valueOf value) ++ after))) ∧
    (depthMark <+: value → ∀ d after,
      request d (parted value ++ after) = .refused (.depthInvalid value)) ∧
    ((∀ d before after, Complete before →
      (request d (before ++ joined value ++ after)).SameOutcome
        (request d (before ++ parted value ++ after))) ↔ ¬ depthMark <+: value) := by
  simp only [sameOutcome_iff]
  have hread : ∀ d before after, Complete before → request d (before ++ joined value ++ after) =
      request d (before ++ parted (valueOf value) ++ after) :=
    fun d before after h => h.request_congr (fun d => request_joined d value after) d
  refine ⟨hread, request_parted_mark, ?_, ?_⟩
  · intro hsame hmark
    exact request_joined_ne hmark (hsame {} [] [] .nil)
  · intro hmark d before after h
    rw [hread d before after h, valueOf_eq_self_iff.mpr hmark]

def cautious : List Text := ["--trace", "--depth", "7", "--utf8"]

def script : List Text := ["a.rive"]

/-- What looks like another option is a value all the same. -/
theorem cautious_depth_spellings : Complete cautious ∧ ¬ depthMark <+: "--help" ∧
    (request {} (cautious ++ joined "--help" ++ script)).SameOutcome
      (request {} (cautious ++ parted "--help" ++ script)) := by
  have hcomplete : Complete cautious :=
    .other (by decide) (.depth "7" (.other (by decide) .nil))
  have hmark : ¬ depthMark <+: "--help" := by decide
  obtain ⟨-, -, hsame⟩ := depth_spellings "--help"
  exact ⟨hcomplete, hmark, hsame.mpr hmark {} cautious script hcomplete⟩

/-- A number behind the option twice over is taken for the depth in the one spelling and refused in the other. -/
theorem doubled_option_taken :
    request {} (joined "--depth=5" ++ script) = .talk { path := "a.rive", settings := { depth := 5 } } ∧
      request {} (parted "--depth=5" ++ script) = .refused (.depthInvalid "--depth=5") := by
  have hvalue : valueOf "--depth=5" = "5" := by decide
  have hdepth : setDepth {} "5" = .ok { settings := { depth := 5 } } := rfl
  constructor
  · rw [request_joined, hvalue, request_parted, hdepth]
    exact request_path (by decide) rfl []
  · exact request_parted_mark (by decide) {} script

end Dialogue.Shell
