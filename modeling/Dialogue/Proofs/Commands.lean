import Dialogue.Proofs.Trigger

/-! The commands of a script, as they are written. A reader comes upon them outside of objects and
comments, and what continues a command stands on the lines below it. Topics are made by the labels
and the triggers among them. -/
namespace Dialogue

open Text

namespace Reading

/-- What continues a line: the texts on the lines below it, up to a line that is for something
else. -/
def continuations (sign : Char) : List Text → List Text
  | [] => []
  | next :: following =>
    match Command.split? (trim next) with
    | none => continuations sign following
    | some (nextSign, rest) =>
      let rest := trim rest
      if nextSign = '^' ∧ rest ≠ [] then rest :: continuations sign following
      else if nextSign = '%' ∧ rest ≠ [] ∧ sign ≠ '+' then continuations sign following
      else []

/-- Stands between a line and what continues it. -/
def separator (sign : Char) (joiner : Joiner) : Text :=
  if sign = '!' then lineMark else joiner.separator

theorem gather_fst (sign : Char) (joiner : Joiner) (following : List Text) (line : Text) :
    (gather sign joiner following line).1 =
      line ++ ((continuations sign following).map (separator sign joiner ++ ·)).flatten := by
  induction following generalizing line with
  | nil => exact (List.append_nil line).symm
  | cons next following ih =>
    rw [gather, continuations]
    cases Command.split? (trim next) with
    | none => exact ih line
    | some command =>
      obtain ⟨nextSign, rest⟩ := command
      dsimp only
      by_cases hjoin : nextSign = '^' ∧ trim rest ≠ []
      · rw [if_pos hjoin, if_pos hjoin, ih, List.map_cons, List.flatten_cons, List.append_assoc,
          List.append_assoc, List.append_assoc]
        rfl
      rw [if_neg hjoin, if_neg hjoin]
      by_cases hprevious : nextSign = '%' ∧ trim rest ≠ []
      · rw [if_pos hprevious]
        by_cases hsign : sign = '+'
        · rw [if_pos hsign, if_neg fun h => h.2.2 hsign]
          exact (List.append_nil line).symm
        · rw [if_neg hsign, if_pos ⟨hprevious.1, hprevious.2, hsign⟩]
          exact ih line
      · rw [if_neg hprevious, if_neg fun h => hprevious ⟨h.1, h.2.1⟩]
        exact (List.append_nil line).symm

end Reading

/-- A command as it is written: the line without its sign and without a comment, and the texts that
continue it. -/
structure Written where
  sign : Char
  head : Text
  parts : List Text
  joiner : Joiner
  deriving DecidableEq, Repr

namespace Written

/-- What stands below the first line. -/
def rest (w : Written) : Text :=
  (w.parts.map (Reading.separator w.sign w.joiner ++ ·)).flatten

def text (w : Written) : Text := w.head ++ w.rest

/-- What a reader carries out, which may have folded the first line. -/
def carried (settings : Settings) (w : Written) : Text :=
  (if settings.foldCase ∧ w.sign = '+' then lower w.head else w.head) ++ w.rest

theorem carried_eq_text {w : Written} (h : w.sign ≠ '+') (settings : Settings) :
    w.carried settings = w.text := by
  rw [carried, if_neg fun hfold => h hfold.2]
  rfl

/-- Opens a topic. -/
def IsLabel (w : Written) : Prop :=
  w.sign = '>' ∧ ((words w.text).headD [] = "begin" ∨ (words w.text).headD [] = "topic")

instance (w : Written) : Decidable w.IsLabel := inferInstanceAs (Decidable (_ ∧ (_ ∨ _)))

/-- The name of the topic that the label is written for. -/
def topic? (w : Written) : Option Text :=
  if w.sign = '>' ∧ (words w.text).headD [] = "topic" then some (((words w.text).drop 1).headD [])
  else none

def isEdgeKind (field : Text) : Bool := field = "includes" || field = "inherits"

/-- What follows the first of the words `includes` and `inherits`, without these words. -/
def edgeNames (fields : List Text) : List Text :=
  (fields.dropWhile (!isEdgeKind ·)).filter (!isEdgeKind ·)

/-- The topics that a label refers to. -/
def references (w : Written) : List Text :=
  if w.IsLabel then edgeNames ((words w.text).drop 2) else []

end Written

namespace Reading

variable {settings : Settings} {source : Text} {number : Nat} {r r' : Reading}

def written (settings : Settings) (sign : Char) (rest : Text) (following : List Text) (r : Reading) :
    Written where
  sign := sign
  head := withoutComment rest
  parts := if sign = '^' then [] else continuations sign following
  joiner := r.joiner.getD settings.joiner

/-- The command on a line, if one is read there. -/
def command? (settings : Settings) (line : Text) (following : List Text) (r : Reading) :
    Option Written :=
  if r.object.isSome ∨ List.isPrefixOf ("//" : Text) line ∨ List.isPrefixOf ("/*" : Text) line ∨
      has "*/" line ∨ r.inComment then none
  else (Command.split? line).map fun (sign, rest) => written settings sign rest following r

/-- The commands on the lines that are left to read. -/
def commands (settings : Settings) (source : Text) : Nat → List Text → Reading → List Written
  | _, [], _ => []
  | number, line :: following, r =>
    match step settings source number (trim line) following r with
    | .error _ => []
    | .ok r' => (command? settings (trim line) following r).toList ++
        commands settings source (number + 1) following r'

/-- The topics are the same, and what is read next goes where it did or to the default topic. -/
structure SameTopics (r r' : Reading) : Prop where
  topics : r'.document.topics = r.document.topics
  topic : r'.topic = r.topic ∨ r'.topic = Topic.default
  rule : r'.rule = r.rule

theorem SameTopics.refl (r : Reading) : SameTopics r r := ⟨rfl, Or.inl rfl, rfl⟩

theorem topics_define (doc : Document) (d : Definition) : (doc.define d).topics = doc.topics := by
  unfold Document.define
  repeat' split
  all_goals rfl

theorem sameTopics_define {line : Text} (h : define source number line r = .ok r') :
    SameTopics r r' := by
  unfold define at h
  dsimp only at h
  split at h
  · split at h
    · cases h
    · cases h
      exact .refl r
  split at h
  · cases h
    exact .refl r
  split at h
  · cases h
    split <;> exact ⟨rfl, Or.inl rfl, rfl⟩
  · cases h
    exact ⟨topics_define _ _, Or.inl rfl, rfl⟩

theorem sameTopics_closeLabel (line : Text) (r : Reading) : SameTopics r (closeLabel line r) := by
  unfold closeLabel
  split
  · exact ⟨rfl, Or.inr rfl, rfl⟩
  split
  · exact ⟨rfl, Or.inl rfl, rfl⟩
  · exact .refl r

/-- What a command does to the topics. -/
inductive Effect (settings : Settings) (w : Written) (r : Reading) : Reading → Prop where
  | label (h : w.IsLabel) : Effect settings w r (openLabel settings.foldCase w.text r)
  | trigger (h : w.sign = '+') (previous : Option Text) :
    Effect settings w r (addTrigger (w.carried settings) previous r)
  | response (hlabel : ¬ w.IsLabel) (hsign : w.sign ≠ '+') {f : Rule → Rule}
      (hf : ∀ rule, (f rule).pattern = rule.pattern ∧ (f rule).previous = rule.previous) :
    Effect settings w r (respond f r)
  | other (hlabel : ¬ w.IsLabel) (hsign : w.sign ≠ '+') {r' : Reading} (h : SameTopics r r') :
    Effect settings w r r'

theorem effect_of_command {w : Written} {previous : Option Text}
    (h : command settings source number w.sign (w.carried settings) previous r = .ok r') :
    Effect settings w r r' := by
  -- Labels and triggers are taken out first, so that no other sign has to say that it is neither.
  by_cases hlabel : w.IsLabel
  · rw [hlabel.1, Written.carried_eq_text (by rw [hlabel.1]; decide)] at h
    cases h
    exact .label hlabel
  by_cases htrigger : w.sign = '+'
  · rw [htrigger] at h
    cases h
    exact .trigger htrigger previous
  unfold command at h
  split at h
  · exact .other hlabel htrigger (sameTopics_define h)
  · rename_i hsign
    cases h
    have hkind : ¬ ((words w.text).headD [] = "begin" ∨ (words w.text).headD [] = "topic") :=
      fun hkind => hlabel ⟨hsign, hkind⟩
    refine .other hlabel htrigger ?_
    rw [Written.carried_eq_text htrigger, openLabel, if_neg hkind]
    split <;> exact ⟨rfl, Or.inl rfl, rfl⟩
  · cases h
    exact .other hlabel htrigger (sameTopics_closeLabel _ r)
  · rename_i hsign
    exact absurd hsign htrigger
  · cases h
    exact .response hlabel htrigger fun _ => ⟨rfl, rfl⟩
  · cases h
    exact .response hlabel htrigger fun _ => ⟨rfl, rfl⟩
  · cases h
    exact .response hlabel htrigger fun _ => ⟨rfl, rfl⟩
  · cases h
    exact .other hlabel htrigger (.refl r)

theorem carried_written (sign : Char) (rest : Text) (following : List Text) (r : Reading) :
    (written settings sign rest following r).carried settings =
      (if sign = '^' then (checkedLine settings sign rest, none)
        else gather sign (r.joiner.getD settings.joiner) following
          (checkedLine settings sign rest)).1 := by
  rw [Written.carried, Written.rest, written]
  by_cases hsign : sign = '^'
  · rw [if_pos hsign, if_pos hsign, List.map_nil, List.flatten_nil, List.append_nil]
    rfl
  · rw [if_neg hsign, if_neg hsign, gather_fst]
    rfl

theorem effect_of_commandLine {sign : Char} {rest : Text} {following : List Text}
    (h : commandLine settings source number sign rest following r = .ok r') :
    Effect settings (written settings sign rest following r) r r' := by
  unfold commandLine at h
  dsimp only at h
  split at h
  · cases h
  · apply effect_of_command (w := written settings sign rest following r)
    rw [carried_written]
    exact h

/-- Where a command is read, nothing else is done with the line. -/
theorem step_of_command {line : Text} {following : List Text} {w : Written}
    (h : command? settings line following r = some w) : ∃ sign rest,
    Command.split? line = some (sign, rest) ∧ w = written settings sign rest following r ∧
      ∀ settings' source number, step settings' source number line following r =
        commandLine settings' source number sign rest following r := by
  unfold command? at h
  split at h
  · cases h
  rename_i hread
  simp only [not_or, Option.not_isSome_iff_eq_none] at hread
  obtain ⟨hobject, hslashes, hopen, hclose, hcomment⟩ := hread
  obtain ⟨⟨sign, rest⟩, hsplit, rfl⟩ := Option.map_eq_some_iff.mp h
  have hline : line ≠ [] := by
    rw [Command.eq_of_split? hsplit]
    exact List.cons_ne_nil _ _
  refine ⟨sign, rest, hsplit, rfl, fun settings' source number => ?_⟩
  rw [step, if_neg hline, hobject]
  dsimp only
  rw [if_neg hslashes, if_neg hopen, if_neg hclose, if_neg hcomment, hsplit]

/-- What a line does on which no command is read. -/
def pass (line : Text) (r : Reading) : Reading :=
  match r.object with
  | some o => if line = [] then r else objectLine r o line
  | none =>
    if List.isPrefixOf ("//" : Text) line then r
    else if List.isPrefixOf ("/*" : Text) line then { r with inComment := r.inComment || !has "*/" line }
    else if has "*/" line then { r with inComment := false }
    else r

/-- Where no command is read, the settings make no difference. -/
theorem step_of_no_command {line : Text} {following : List Text}
    (h : command? settings line following r = none) (settings' : Settings) :
    step settings' source number line following r = .ok (pass line r) := by
  unfold step pass
  by_cases hline : line = []
  · subst hline
    cases r.object <;> rfl
  rw [if_neg hline]
  cases hobject : r.object with
  | some o => simp [hline]
  | none =>
    dsimp only
    by_cases hslashes : List.isPrefixOf ("//" : Text) line
    · rw [if_pos hslashes, if_pos hslashes]
    by_cases hopen : List.isPrefixOf ("/*" : Text) line
    · rw [if_neg hslashes, if_neg hslashes, if_pos hopen, if_pos hopen]
    by_cases hclose : has "*/" line
    · rw [if_neg hslashes, if_neg hslashes, if_neg hopen, if_neg hopen, if_pos hclose, if_pos hclose]
    rw [if_neg hslashes, if_neg hslashes, if_neg hopen, if_neg hopen, if_neg hclose, if_neg hclose]
    by_cases hcomment : r.inComment
    · rw [if_pos hcomment]
    · rw [if_neg hcomment]
      have hread : ¬ (r.object.isSome ∨ List.isPrefixOf ("//" : Text) line ∨
          List.isPrefixOf ("/*" : Text) line ∨ has "*/" line ∨ r.inComment) := by
        simp only [hobject, hslashes, hopen, hclose, hcomment, Option.isSome_none, Bool.false_eq_true,
          or_self, not_false_eq_true]
      rw [command?, if_neg hread] at h
      rw [Option.map_eq_none_iff.mp h]

theorem effect_of_step {line : Text} {following : List Text} {w : Written}
    (hw : command? settings line following r = some w)
    (h : step settings source number line following r = .ok r') : Effect settings w r r' := by
  obtain ⟨sign, rest, -, rfl, hstep⟩ := step_of_command hw
  rw [hstep] at h
  exact effect_of_commandLine h

/-- A line on which no command is read leaves the topics alone. -/
theorem sameTopics_of_step {line : Text} {following : List Text}
    (hw : command? settings line following r = none)
    (h : step settings source number line following r = .ok r') : SameTopics r r' := by
  rw [step_of_no_command hw] at h
  cases h
  unfold pass objectLine
  dsimp only
  repeat' split
  all_goals exact ⟨rfl, Or.inl rfl, rfl⟩

/-- Commands are carried out one after another. -/
inductive Effects (settings : Settings) : List Written → Reading → Reading → Prop where
  | done (r : Reading) : Effects settings [] r r
  | skip {ws : List Written} {r r₁ r' : Reading} (h : SameTopics r r₁)
      (rest : Effects settings ws r₁ r') : Effects settings ws r r'
  | next {w : Written} {ws : List Written} {r r₁ r' : Reading} (h : Effect settings w r r₁)
      (rest : Effects settings ws r₁ r') : Effects settings (w :: ws) r r'

theorem effects_of_steps {lines : List Text}
    (h : steps settings source number lines r = .ok r') :
    Effects settings (commands settings source number lines r) r r' := by
  induction lines generalizing number r with
  | nil =>
    cases h
    exact .done _
  | cons line following ih =>
    obtain ⟨r₁, hstep, hsteps⟩ := Answering.ok_of_bind h
    rw [commands, hstep]
    dsimp only
    cases hw : command? settings (trim line) following r with
    | none => exact .skip (sameTopics_of_step hw hstep) (ih hsteps)
    | some w => exact .next (effect_of_step hw hstep) (ih hsteps)

end Reading

namespace Document

/-- The commands of a script. -/
def commands (settings : Settings) (source code : Text) : List Written :=
  Reading.commands settings source 1 (pieces (· = '\n') code) {}

theorem effects_of_ofText {settings : Settings} {source code : Text} {doc : Document}
    (h : ofText settings source code = .ok doc) :
    ∃ r, Reading.Effects settings (commands settings source code) {} r ∧ doc = r.document := by
  obtain ⟨r, hsteps, hdoc⟩ := Answering.ok_of_map h
  exact ⟨r, Reading.effects_of_steps hsteps, hdoc⟩

end Document

end Dialogue
