import Dialogue.Proofs.Table
import Dialogue.Proofs.Words

/-! Scripts as they are printed: topic by topic, rule by rule, each text on a line of its own or spread
over continuations. A lenient reader reads from them exactly what has been printed. -/
namespace Dialogue

open Text

/-! ### What is printed -/

/-- A text that is spread over lines. -/
structure Spread where
  first : Text
  more : List Text := []
  deriving DecidableEq, Repr

namespace Spread

def text (joiner : Joiner) (s : Spread) : Text := joiner.separator.intercalate (s.first :: s.more)

/-- The lines of a command with this text. -/
def lines (sign : Char) (s : Spread) : List Text :=
  (sign :: ' ' :: s.first) :: s.more.map fun piece => '^' :: ' ' :: piece

end Spread

/-- A rule with the lines of its texts. -/
structure RuleSource where
  pattern : Spread
  previous : Option Text := none
  conditions : List Spread := []
  replies : List Spread := []
  redirect : Option Spread := none
  deriving DecidableEq, Repr

namespace RuleSource

def rule (joiner : Joiner) (s : RuleSource) : Rule where
  pattern := s.pattern.text joiner
  replies := s.replies.map (·.text joiner)
  conditions := s.conditions.map (·.text joiner)
  redirect := s.redirect.map (·.text joiner)
  previous := s.previous

/-- What follows the trigger, with the signs of the commands. -/
def responses (s : RuleSource) : List (Char × Spread) :=
  s.conditions.map (('*', ·)) ++ s.replies.map (('-', ·)) ++ s.redirect.toList.map (('@', ·))

def commands (s : RuleSource) : List (Char × Spread) := ('+', s.pattern) :: s.responses

def previousLines (s : RuleSource) : List Text := s.previous.toList.map fun t => '%' :: ' ' :: t

def lines (s : RuleSource) : List Text :=
  s.pattern.lines '+' ++ s.previousLines ++ s.responses.flatMap fun c => c.2.lines c.1

end RuleSource

structure TopicSource where
  name : Text
  includes : List Text := []
  inherits : List Text := []
  rules : List RuleSource := []
  deriving DecidableEq, Repr

namespace TopicSource

def topic (joiner : Joiner) (s : TopicSource) : Topic where
  rules := s.rules.map (·.rule joiner)
  includes := s.includes
  inherits := s.inherits

/-- Names of other topics after the word that says what they are for. -/
def edges (word : Text) (names : List Text) : List Text := if names = [] then [] else word :: names

def fields (s : TopicSource) : List Text :=
  edges "includes" s.includes ++ edges "inherits" s.inherits

def label (s : TopicSource) : Text := [' '].intercalate ("topic" :: s.name :: s.fields)

/-- The commands of a topic. What a rule looks back at is no command of its own. -/
def commands (s : TopicSource) : List (Char × Spread) :=
  ('>', { first := s.label }) :: s.rules.flatMap RuleSource.commands ++ [('<', { first := "topic" })]

def lines (s : TopicSource) : List Text :=
  ('>' :: ' ' :: s.label) :: s.rules.flatMap RuleSource.lines ++ [("< topic" : Text)]

end TopicSource

/-! ### What can be printed -/

def Spread.IsNeat (s : Spread) : Prop := ∀ piece ∈ s.first :: s.more, Neat piece

structure RuleSource.IsNeat (s : RuleSource) : Prop where
  commands : ∀ c ∈ s.commands, c.2.IsNeat
  previous : ∀ t ∈ s.previous, Neat t

/-- Names that a label may list. -/
structure TopicSource.Listed (names : List Text) : Prop where
  nodup : names.Nodup
  name : ∀ name ∈ names, IsName name ∧ name ≠ "includes" ∧ name ≠ "inherits"

structure TopicSource.IsNeat (s : TopicSource) : Prop where
  name : IsName s.name
  includes : Listed s.includes
  inherits : Listed s.inherits
  rules : ∀ r ∈ s.rules, r.IsNeat

/-- A script that can be printed: no line of it ends a comment, and no line of a command begins
one. -/
structure Printable (topics : List TopicSource) : Prop where
  neat : ∀ t ∈ topics, t.IsNeat
  nodup : (topics.map (·.name)).Nodup
  noEnd : ∀ line ∈ topics.flatMap (·.lines), ¬ has "*/" line
  noComment : ∀ c ∈ topics.flatMap (·.commands), ¬ has " // " (' ' :: c.2.first)

instance (s : Spread) : Decidable s.IsNeat :=
  inferInstanceAs (Decidable (∀ piece ∈ s.first :: s.more, Neat piece))

instance (s : RuleSource) : Decidable s.IsNeat :=
  decidable_of_iff ((∀ c ∈ s.commands, c.2.IsNeat) ∧ ∀ t ∈ s.previous, Neat t)
    ⟨fun h => ⟨h.1, h.2⟩, fun h => ⟨h.commands, h.previous⟩⟩

instance (names : List Text) : Decidable (TopicSource.Listed names) :=
  decidable_of_iff
    (names.Nodup ∧ ∀ name ∈ names, IsName name ∧ name ≠ "includes" ∧ name ≠ "inherits")
    ⟨fun h => ⟨h.1, h.2⟩, fun h => ⟨h.nodup, h.name⟩⟩

instance (s : TopicSource) : Decidable s.IsNeat :=
  decidable_of_iff
    (IsName s.name ∧ TopicSource.Listed s.includes ∧ TopicSource.Listed s.inherits ∧
      ∀ r ∈ s.rules, r.IsNeat)
    ⟨fun h => ⟨h.1, h.2.1, h.2.2.1, h.2.2.2⟩, fun h => ⟨h.name, h.includes, h.inherits, h.rules⟩⟩

instance (topics : List TopicSource) : Decidable (Printable topics) :=
  decidable_of_iff
    ((∀ t ∈ topics, t.IsNeat) ∧ (topics.map (·.name)).Nodup ∧
      (∀ line ∈ topics.flatMap (·.lines), ¬ has "*/" line) ∧
        ∀ c ∈ topics.flatMap (·.commands), ¬ has " // " (' ' :: c.2.first))
    ⟨fun h => ⟨h.1, h.2.1, h.2.2.1, h.2.2.2⟩, fun h => ⟨h.neat, h.nodup, h.noEnd, h.noComment⟩⟩

/-- The code is what is printed, up to blank lines and white space around lines. -/
def Prints (code : Text) (topics : List TopicSource) : Prop :=
  ((pieces (· = '\n') code).map trim).filter (· ≠ []) = topics.flatMap (·.lines)

/-! ### Lines of commands -/

theorem Neat.withoutComment {t : Text} (h : Neat t) (hcomment : ¬ has " // " (' ' :: t)) :
    Reading.withoutComment (' ' :: t) = t := by
  have hcut : cut? " // " (' ' :: t) = none :=
    cut?_eq_none_iff.mpr fun hmark => hcomment (has_iff.mpr hmark)
  rw [Reading.withoutComment, hcut]
  exact h.trim_cons

theorem RuleSource.lines_subset {s : RuleSource} {c : Char × Spread} (h : c ∈ s.commands) :
    c.2.lines c.1 ⊆ s.lines := by
  intro line hline
  rw [RuleSource.lines, List.mem_append, List.mem_append]
  rcases List.mem_cons.mp h with rfl | hresponse
  · exact Or.inl (Or.inl hline)
  · exact Or.inr (List.mem_flatMap.mpr ⟨c, hresponse, hline⟩)

theorem RuleSource.previousLines_subset (s : RuleSource) : s.previousLines ⊆ s.lines :=
  fun _ hline => List.mem_append_left _ (List.mem_append_right _ hline)

theorem TopicSource.rule_lines_subset {s : TopicSource} {r : RuleSource} (h : r ∈ s.rules) :
    r.lines ⊆ s.lines := by
  intro line hline
  rw [TopicSource.lines, List.mem_append, List.mem_cons]
  exact Or.inl (Or.inr (List.mem_flatMap.mpr ⟨r, h, hline⟩))

theorem TopicSource.lines_subset {s : TopicSource} {c : Char × Spread} (h : c ∈ s.commands) :
    c.2.lines c.1 ⊆ s.lines := by
  intro line hline
  rw [TopicSource.commands, List.mem_append, List.mem_cons] at h
  rcases h with (rfl | hrule) | hlast
  · exact List.mem_append_left _ (List.mem_cons.mpr (Or.inl (List.mem_singleton.mp hline)))
  · obtain ⟨r, hr, hc⟩ := List.mem_flatMap.mp hrule
    exact rule_lines_subset hr (RuleSource.lines_subset hc hline)
  · obtain rfl := List.mem_singleton.mp hlast
    exact List.mem_append_right _ hline

namespace Reading

variable {settings : Settings} {source : Text}

/-! ### Blank lines -/

/-- Only lines with something on them are read, and white space around them is not. -/
theorem steps_filter (n m : Nat) (lines : List Text) (r : Reading) :
    UpToNumber (steps settings source n lines r)
      (steps settings source m ((lines.map trim).filter (· ≠ [])) r) := by
  have hbelow : ∀ lines : List Text, SameBelow lines ((lines.map trim).filter (· ≠ [])) := by
    intro lines
    induction lines with
    | nil => exact fun _ _ _ => rfl
    | cons next lines ih =>
      intro sign joiner line
      rw [List.map_cons, List.filter_cons]
      split
      · simp only [gather, trim_trim, ih sign joiner]
      · rename_i hblank
        have hnil : trim next = [] := by simpa using hblank
        rw [gather, hnil]
        exact ih sign joiner line
  induction lines generalizing n m r with
  | nil => exact .refl _
  | cons line lines ih =>
    rw [List.map_cons, List.filter_cons]
    split
    · rw [steps, steps, trim_trim]
      exact (step_congr (hbelow lines) n m _ r).bind fun r _ => ih (n + 1) (m + 1) r
    · rename_i hblank
      have hnil : trim line = [] := by simpa using hblank
      rw [steps, hnil]
      exact ih (n + 1) m r

/-! ### One command -/

/-- The lines are read from one state to another, whatever follows. -/
def Reads (settings : Settings) (source : Text) (lines below : List Text) (r r' : Reading) : Prop :=
  ∀ n, steps settings source n (lines ++ below) r =
    steps settings source (n + lines.length) below r'

namespace Reads

variable {a b below : List Text} {r r' r'' : Reading}

theorem nil (r : Reading) : Reads settings source [] below r r := fun _ => rfl

theorem append (ha : Reads settings source a (b ++ below) r r')
    (hb : Reads settings source b below r' r'') :
    Reads settings source (a ++ b) below r r'' := by
  intro n
  rw [List.append_assoc, ha n, hb, List.length_append, Nat.add_assoc]

end Reads

theorem gather_more {more : List Text} (hmore : ∀ piece ∈ more, Neat piece) {sign : Char}
    (hsign : sign ≠ '!') (joiner : Joiner) (following : List Text) (line : Text) :
    gather sign joiner ((more.map fun piece => '^' :: ' ' :: piece) ++ following) line =
      gather sign joiner following (joiner.separator.intercalate (line :: more)) := by
  induction more generalizing line with
  | nil => simp [List.intercalate]
  | cons piece more ih =>
    rw [List.forall_mem_cons] at hmore
    have hjoined : joiner.separator.intercalate ((line ++ joiner.separator ++ piece) :: more) =
        joiner.separator.intercalate (line :: piece :: more) := by
      cases more <;> simp [List.intercalate]
    rw [List.map_cons, List.cons_append, gather, hmore.1.trim_line (by decide)]
    dsimp only [Command.split?]
    rw [hmore.1.trim_cons, if_pos ⟨rfl, hmore.1.ne⟩, if_neg hsign, ih hmore.2, hjoined]

/-- A command that can be read as it is printed. -/
structure Legible (c : Char × Spread) : Prop where
  neat : c.2.IsNeat
  noEnd : ∀ line ∈ c.2.lines c.1, ¬ has "*/" line
  noComment : ¬ has " // " (' ' :: c.2.first)

theorem Legible.continues {c : Char × Spread} (h : Legible c) :
    ∀ line ∈ c.2.more.map (fun piece => '^' :: ' ' :: piece), Continues line := by
  intro line hline
  have hnoEnd := h.noEnd line (List.mem_cons_of_mem _ hline)
  obtain ⟨piece, hpiece, rfl⟩ := List.mem_map.mp hline
  have hpiece := h.neat piece (List.mem_cons_of_mem _ hpiece)
  have htrim : trim ('^' :: ' ' :: piece) = '^' :: ' ' :: piece := hpiece.trim_line (by decide)
  refine ⟨?_, ?_⟩
  · rw [htrim]
    exact hnoEnd
  · rw [htrim]
    rintro sign rest ⟨⟩
    exact Or.inl rfl

/-- The sign is that of a command of its own, and not of a definition. -/
structure Leads (sign : Char) : Prop where
  definition : sign ≠ '!'
  continuation : sign ≠ '^'
  previous : sign ≠ '%'
  space : isSpace sign = false

/-- A printed command with its continuations is carried out with the whole text. Lines that only
continue a command stand between it and the next one if a rule looks back at something. -/
theorem reads_command (hlenient : settings.strict = false) (hfold : settings.foldCase = false)
    {r r' : Reading} (hopen : r.Open) (hjoiner : r.joiner = none) (hopen' : r'.object = none)
    {c : Char × Spread} (hsign : Leads c.1) (hlegible : Legible c) {passed below : List Text}
    (hpassed : ∀ line ∈ passed, Continues line) {previous : Option Text}
    (hgather : ∀ line, gather c.1 settings.joiner (passed ++ below) line = (line, previous))
    (hcommand : ∀ n, command settings source n c.1 (c.2.text settings.joiner) previous r = .ok r') :
    Reads settings source (c.2.lines c.1 ++ passed) below r r' := by
  obtain ⟨sign, s⟩ := c
  have hfirst := hlegible.neat s.first List.mem_cons_self
  have hmore : ∀ piece ∈ s.more, Neat piece := fun piece hpiece =>
    hlegible.neat piece (List.mem_cons_of_mem _ hpiece)
  have hstep : ∀ n, step settings source n (trim (sign :: ' ' :: s.first))
      ((s.more.map fun piece => '^' :: ' ' :: piece) ++ (passed ++ below)) r = .ok r' := by
    intro n
    rw [hfirst.trim_line hsign.space, step_of_open hopen, if_neg (List.cons_ne_nil _ _),
      if_neg (by simp), if_neg (by simp), if_neg (hlegible.noEnd _ List.mem_cons_self)]
    dsimp only [Command.split?]
    rw [commandLine, hfirst.withoutComment hlegible.noComment, hlenient, hfold, hjoiner]
    dsimp only
    rw [if_neg Bool.false_ne_true, if_neg hsign.continuation,
      if_neg fun hfolded => Bool.false_ne_true hfolded.1]
    dsimp only [Option.getD]
    rw [gather_more hmore hsign.definition, hgather]
    exact hcommand n
  intro n
  have hcontinue : Reads settings source
      ((s.more.map fun piece => '^' :: ' ' :: piece) ++ passed) below r' r' := fun k =>
    steps_continues hlenient hopen' (List.forall_mem_append.mpr ⟨hlegible.continues, hpassed⟩) k below
  have hrest := hcontinue (n + 1)
  rw [List.append_assoc, Nat.add_right_comm] at hrest
  rw [Spread.lines, List.cons_append, List.cons_append, steps, List.append_assoc, hstep]
  exact hrest

/-! ### Rules and topics -/

/-- Some topics have been read, and the last of them is still open. -/
def within (done : List (Text × Topic)) (name : Text) (t : Topic) (rule : Option (Text × Nat)) :
    Reading where
  document := { topics := ⟨done ++ [(name, t)]⟩ }
  topic := name
  rule := rule

/-- Some topics have been read, and none of them is open. -/
def between (done : List (Text × Topic)) (rule : Option (Text × Nat)) : Reading where
  document := { topics := ⟨done⟩ }
  rule := rule

variable {done : List (Text × Topic)} {name : Text} {t : Topic}

theorem alterTopic_within (hname : name ∉ done.map Prod.fst) (rule : Option (Text × Nat))
    (f : Topic → Topic) :
    (within done name t rule).document.alterTopic name f = { topics := ⟨done ++ [(name, f t)]⟩ } := by
  have halter := Table.alterEntry_append hname {} f [(name, t)]
  rw [Table.alterEntry, if_pos rfl] at halter
  rw [Document.alterTopic, within, Table.alter, halter]

theorem addTrigger_within (hname : name ∉ done.map Prod.fst) (rule : Option (Text × Nat))
    (line : Text) (previous : Option Text) :
    addTrigger line previous (within done name t rule) =
      within done name (t.addRule { pattern := line, previous }) (some (name, t.rules.length)) := by
  have habsent : done.lookup name = none := by
    rw [List.lookup_eq_none_iff]
    refine fun e he => bne_iff_ne.mpr fun heq => hname ?_
    rw [heq]
    exact List.mem_map_of_mem he
  have hfind : (within done name t rule).document.topics.find? name = some t := by
    change (done ++ [(name, t)]).lookup name = some t
    rw [List.lookup_append, habsent, List.lookup_cons, beq_self_eq_true]
    rfl
  change ({ within done name t rule with
    document := (within done name t rule).document.alterTopic name
      (·.addRule ⟨line, [], [], none, previous⟩)
    rule := some (name, (((within done name t rule).document.topics.find? name).map
      (·.rules.length)).getD 0) } : Reading) = _
  rw [hfind, alterTopic_within hname]
  rfl

theorem respond_within (hname : name ∉ done.map Prod.fst) (f : Rule → Rule) (q : Rule) :
    respond f (within done name (t.addRule q) (some (name, t.rules.length))) =
      within done name (t.addRule (f q)) (some (name, t.rules.length)) := by
  have halter : (t.addRule q).alterRule t.rules.length f = t.addRule (f q) := by
    simp [Topic.alterRule, Topic.addRule, List.modify_eq_take_cons_drop]
  change ({ within done name (t.addRule q) (some (name, t.rules.length)) with
    document := (within done name (t.addRule q) (some (name, t.rules.length))).document.alterTopic
      name (·.alterRule t.rules.length f) } : Reading) = _
  rw [alterTopic_within hname, halter]
  rfl

/-- The command says more about a rule. -/
def IsResponse (sign : Char) : Prop := sign = '*' ∨ sign = '-' ∨ sign = '@'

/-- A rule with what one more command says. -/
def answered (joiner : Joiner) (q : Rule) (c : Char × Spread) : Rule :=
  let line := c.2.text joiner
  match c.1 with
  | '*' => { q with conditions := q.conditions ++ [line] }
  | '-' => { q with replies := q.replies ++ [line] }
  | '@' => { q with redirect := some line }
  | _ => q

theorem IsResponse.leads {sign : Char} (h : IsResponse sign) : Leads sign := by
  rcases h with rfl | rfl | rfl <;> exact ⟨by decide, by decide, by decide, by decide⟩

theorem command_response (hname : name ∉ done.map Prod.fst) {c : Char × Spread}
    (hc : IsResponse c.1) (n : Nat) (q : Rule) :
    command settings source n c.1 (c.2.text settings.joiner) none
      (within done name (t.addRule q) (some (name, t.rules.length))) =
    .ok (within done name (t.addRule (answered settings.joiner q c))
      (some (name, t.rules.length))) := by
  obtain ⟨sign, s⟩ := c
  rcases hc with hsign | hsign | hsign <;> cases hsign <;>
    exact congrArg Except.ok (respond_within hname _ q)

theorem continued_line {s : Spread} (hneat : s.IsNeat) {sign : Char}
    (hsign : Leads sign) (below : List Text) : continued (s.lines sign ++ below) = false := by
  have hfirst := hneat s.first List.mem_cons_self
  rw [Spread.lines, List.cons_append, continued, hfirst.trim_line hsign.space]
  simp [Command.split?, hsign.continuation, hsign.previous]

theorem continued_responses {cs : List (Char × Spread)}
    (hcs : ∀ c ∈ cs, IsResponse c.1 ∧ Legible c) {below : List Text} (h : continued below = false) :
    continued (cs.flatMap (fun c => c.2.lines c.1) ++ below) = false := by
  cases cs with
  | nil => exact h
  | cons c cs =>
    rw [List.flatMap_cons, List.append_assoc]
    obtain ⟨hsign, hlegible⟩ := hcs c List.mem_cons_self
    exact continued_line hlegible.neat hsign.leads _

theorem isResponse_of_mem {s : RuleSource} {c : Char × Spread} (h : c ∈ s.responses) :
    IsResponse c.1 := by
  rw [RuleSource.responses, List.mem_append, List.mem_append] at h
  rcases h with (h | h) | h
  all_goals
    obtain ⟨u, -, rfl⟩ := List.mem_map.mp h
    simp [IsResponse]

theorem continued_rules {rules : List RuleSource} (hneat : ∀ s ∈ rules, s.IsNeat)
    {below : List Text} (h : continued below = false) :
    continued (rules.flatMap RuleSource.lines ++ below) = false := by
  cases rules with
  | nil => exact h
  | cons s rules =>
    have hpattern := (hneat s List.mem_cons_self).commands _ List.mem_cons_self
    rw [List.flatMap_cons, RuleSource.lines, List.append_assoc, List.append_assoc, List.append_assoc]
    exact continued_line hpattern ⟨by decide, by decide, by decide, by decide⟩ _

/-- What a rule looks back at is found below its trigger. -/
theorem gather_previous {s : RuleSource} (hneat : s.IsNeat) {below : List Text}
    (hbelow : continued below = false) (joiner : Joiner) (line : Text) :
    gather '+' joiner (s.previousLines ++ below) line = (line, s.previous) := by
  rw [RuleSource.previousLines]
  cases hprevious : s.previous with
  | none => exact gather_of_not_continued hbelow '+' joiner line
  | some p =>
    have hp := hneat.previous p hprevious
    have htrim : Text.trim ('%' :: ' ' :: p) = '%' :: ' ' :: p := hp.trim_line (by decide)
    change gather '+' joiner (('%' :: ' ' :: p) :: below) line = _
    rw [gather, htrim]
    dsimp only [Command.split?]
    rw [hp.trim_cons, if_neg (by simp), if_pos ⟨rfl, hp.ne⟩, if_pos rfl]

theorem foldl_conditions (joiner : Joiner) (texts : List Spread) (q : Rule) :
    (texts.map (('*', ·))).foldl (answered joiner) q =
      { q with conditions := q.conditions ++ texts.map (·.text joiner) } := by
  induction texts generalizing q with
  | nil => simp
  | cons s texts ih => simp [ih, answered]

theorem foldl_replies (joiner : Joiner) (texts : List Spread) (q : Rule) :
    (texts.map (('-', ·))).foldl (answered joiner) q =
      { q with replies := q.replies ++ texts.map (·.text joiner) } := by
  induction texts generalizing q with
  | nil => simp
  | cons s texts ih => simp [ih, answered]

/-- The responses of a rule make it what has been printed. -/
theorem foldl_responses (joiner : Joiner) (s : RuleSource) :
    s.responses.foldl (answered joiner) ⟨s.pattern.text joiner, [], [], none, s.previous⟩ =
      s.rule joiner := by
  rw [RuleSource.responses, List.foldl_append, List.foldl_append, foldl_conditions, foldl_replies]
  cases hredirect : s.redirect <;> simp [RuleSource.rule, hredirect, answered]

section Rules

variable (hlenient : settings.strict = false) (hfold : settings.foldCase = false)
  (hname : name ∉ done.map Prod.fst)

include hlenient hfold hname

theorem reads_responses {cs : List (Char × Spread)} (hcs : ∀ c ∈ cs, IsResponse c.1 ∧ Legible c)
    {below : List Text} (hbelow : continued below = false) (q : Rule) :
    Reads settings source (cs.flatMap fun c => c.2.lines c.1) below
      (within done name (t.addRule q) (some (name, t.rules.length)))
      (within done name (t.addRule (cs.foldl (answered settings.joiner) q))
        (some (name, t.rules.length))) := by
  induction cs generalizing q with
  | nil => exact .nil _
  | cons c cs ih =>
    obtain ⟨hc, hcs⟩ := List.forall_mem_cons.mp hcs
    obtain ⟨hsign, hlegible⟩ := hc
    have hbelow' := continued_responses hcs hbelow
    have hread : Reads settings source (c.2.lines c.1 ++ [])
        ((cs.flatMap fun c => c.2.lines c.1) ++ below)
        (within done name (t.addRule q) (some (name, t.rules.length)))
        (within done name (t.addRule (answered settings.joiner q c)) (some (name, t.rules.length))) :=
      reads_command hlenient hfold ⟨rfl, rfl⟩ rfl rfl hsign.leads hlegible (List.forall_mem_nil _)
        (gather_of_not_continued hbelow' c.1 settings.joiner)
        fun n => command_response hname hsign n q
    rw [List.append_nil] at hread
    exact hread.append (ih hcs _)

theorem reads_rule {s : RuleSource} (hneat : s.IsNeat) (hlegible : ∀ c ∈ s.commands, Legible c)
    (hend : ∀ line ∈ s.previousLines, ¬ has "*/" line) {below : List Text}
    (hbelow : continued below = false) (rule : Option (Text × Nat)) :
    Reads settings source s.lines below (within done name t rule)
      (within done name (t.addRule (s.rule settings.joiner)) (some (name, t.rules.length))) := by
  obtain ⟨hpattern, hresponses⟩ := List.forall_mem_cons.mp hlegible
  have hcs : ∀ c ∈ s.responses, IsResponse c.1 ∧ Legible c :=
    fun c hc => ⟨isResponse_of_mem hc, hresponses c hc⟩
  have hbelow' := continued_responses hcs hbelow
  have hpassed : ∀ line ∈ s.previousLines, Continues line := by
    intro line hline
    have hnoEnd := hend line hline
    obtain ⟨p, hp, rfl⟩ := List.mem_map.mp hline
    have hneat := hneat.previous p (Option.mem_toList.mp hp)
    have htrim : Text.trim ('%' :: ' ' :: p) = '%' :: ' ' :: p := hneat.trim_line (by decide)
    refine ⟨?_, ?_⟩
    · rw [htrim]
      exact hnoEnd
    · rw [htrim]
      rintro sign rest ⟨⟩
      exact Or.inr rfl
  have hgather := gather_previous hneat hbelow' settings.joiner
  have hsign : Leads '+' := ⟨by decide, by decide, by decide, by decide⟩
  have htrigger : Reads settings source (s.pattern.lines '+' ++ s.previousLines)
      ((s.responses.flatMap fun c => c.2.lines c.1) ++ below) (within done name t rule)
      (within done name (t.addRule ⟨s.pattern.text settings.joiner, [], [], none, s.previous⟩)
        (some (name, t.rules.length))) :=
    reads_command hlenient hfold ⟨rfl, rfl⟩ rfl rfl hsign hpattern hpassed hgather
      fun n => congrArg Except.ok (addTrigger_within hname rule _ _)
  have hrule := htrigger.append (reads_responses hlenient hfold hname hcs hbelow _)
  rw [foldl_responses] at hrule
  exact hrule

theorem reads_rules {rules : List RuleSource} (hneat : ∀ s ∈ rules, s.IsNeat)
    (hlegible : ∀ s ∈ rules, ∀ c ∈ s.commands, Legible c)
    (hend : ∀ s ∈ rules, ∀ line ∈ s.previousLines, ¬ has "*/" line) {below : List Text}
    (hbelow : continued below = false) (rule : Option (Text × Nat)) : ∃ rule',
      Reads settings source (rules.flatMap RuleSource.lines) below (within done name t rule)
        (within done name { t with rules := t.rules ++ rules.map (·.rule settings.joiner) } rule') := by
  induction rules generalizing t rule with
  | nil =>
    refine ⟨rule, ?_⟩
    rw [List.map_nil, List.append_nil]
    exact .nil _
  | cons s rules ih =>
    rw [List.forall_mem_cons] at hneat hlegible hend
    have hfirst : Reads settings source s.lines (rules.flatMap RuleSource.lines ++ below)
        (within done name t rule) (within done name (t.addRule (s.rule settings.joiner))
          (some (name, t.rules.length))) :=
      reads_rule hlenient hfold hname hneat.1 hlegible.1 hend.1 (continued_rules hneat.2 hbelow) rule
    obtain ⟨rule', hrest⟩ := ih hneat.2 hlegible.2 hend.2 (some (name, t.rules.length))
    refine ⟨rule', ?_⟩
    have hboth := hfirst.append hrest
    rw [Topic.addRule, List.append_assoc] at hboth
    exact hboth

end Rules

/-! ### Labels -/

/-- Names on a label go where the last key word says. -/
theorem addEdges_names (included : Bool) {names : List Text}
    (h : ∀ name ∈ names, name ≠ "includes" ∧ name ≠ "inherits") (fields : List Text) (t : Topic) :
    addEdges (some included) (names ++ fields) t = addEdges (some included) fields
      { t with
        includes := if included then names.foldl Topic.addName t.includes else t.includes
        inherits := if included then t.inherits else names.foldl Topic.addName t.inherits } := by
  induction names generalizing t with
  | nil => cases included <;> rfl
  | cons name names ih =>
    obtain ⟨hname, hnames⟩ := List.forall_mem_cons.mp h
    rw [List.cons_append, addEdges.eq_def]
    dsimp only
    rw [if_neg hname.1, if_neg hname.2, ih hnames]
    cases included <;> rfl

theorem foldl_addName {names added : List Text} (h : (names ++ added).Nodup) :
    added.foldl Topic.addName names = names ++ added := by
  induction added generalizing names with
  | nil => simp
  | cons name added ih =>
    have hnew : name ∉ names := fun hmem =>
      (List.nodup_append.mp h).2.2 name hmem name List.mem_cons_self rfl
    rw [List.foldl_cons, Topic.addName, if_neg hnew, ih (by simpa using h)]
    simp

/-- A key word and the names after it add these names, whatever came before. -/
theorem addEdges_edges (included : Bool) {names : List Text}
    (h : ∀ name ∈ names, name ≠ "includes" ∧ name ≠ "inherits") (mode : Option Bool)
    (fields : List Text) (t : Topic) : ∃ mode',
      addEdges mode (TopicSource.edges (if included then "includes" else "inherits") names ++ fields) t =
        addEdges mode' fields { t with
          includes := if included then names.foldl Topic.addName t.includes else t.includes
          inherits := if included then t.inherits else names.foldl Topic.addName t.inherits } := by
  rw [TopicSource.edges]
  split
  · rename_i hnil
    rw [hnil]
    exact ⟨mode, by cases included <;> rfl⟩
  · refine ⟨some included, ?_⟩
    rw [← addEdges_names included h]
    cases included <;> rfl

/-- A label gives a topic the edges that it lists. -/
theorem addEdges_label {s : TopicSource} (h : s.IsNeat) :
    addEdges none s.fields {} = { includes := s.includes, inherits := s.inherits } := by
  obtain ⟨mode, hincludes⟩ := addEdges_edges true (fun name hname => (h.includes.name name hname).2)
    none (TopicSource.edges "inherits" s.inherits) {}
  obtain ⟨mode', hinherits⟩ := addEdges_edges false (fun name hname => (h.inherits.name name hname).2)
    mode [] { includes := s.includes }
  have hnodup : ∀ {names : List Text}, names.Nodup → names.foldl Topic.addName [] = names := by
    intro names hnames
    rw [← List.nil_append names] at hnames
    exact foldl_addName hnames
  rw [List.append_nil] at hinherits
  refine hincludes.trans ?_
  dsimp only
  rw [if_pos rfl, if_pos rfl, hnodup h.includes.nodup]
  refine hinherits.trans ?_
  dsimp only
  rw [if_neg Bool.false_ne_true, if_neg Bool.false_ne_true, hnodup h.inherits.nodup]
  rfl

theorem isName_edges {word : Text} (hword : IsName word) {names : List Text}
    (h : TopicSource.Listed names) : ∀ name ∈ TopicSource.edges word names, IsName name := by
  intro name hname
  rw [TopicSource.edges] at hname
  split at hname
  · cases hname
  · rcases List.mem_cons.mp hname with rfl | hmem
    · exact hword
    · exact (h.name name hmem).1

theorem isName_label {s : TopicSource} (h : s.IsNeat) :
    ∀ name ∈ ("topic" : Text) :: s.name :: s.fields, IsName name := by
  have htopic : IsName "topic" := by decide
  have hincludes : IsName "includes" := by decide
  have hinherits : IsName "inherits" := by decide
  refine List.forall_mem_cons.mpr ⟨htopic, List.forall_mem_cons.mpr ⟨h.name, ?_⟩⟩
  exact List.forall_mem_append.mpr
    ⟨isName_edges hincludes h.includes, isName_edges hinherits h.inherits⟩

theorem openLabel_label {s : TopicSource} (h : s.IsNeat) (hname : s.name ∉ done.map Prod.fst)
    (rule : Option (Text × Nat)) :
    openLabel false s.label (between done rule) =
      within done s.name { includes := s.includes, inherits := s.inherits } none := by
  have hwords := words_intercalate (isName_label h)
  have halter : (between done rule).document.alterTopic s.name (addEdges none s.fields) =
      { topics := ⟨done ++ [(s.name, { includes := s.includes, inherits := s.inherits })]⟩ } := by
    have hnew := Table.alterEntry_append hname {} (addEdges none s.fields) []
    rw [List.append_nil, Table.alterEntry, addEdges_label h] at hnew
    rw [Document.alterTopic, between, Table.alter, hnew]
  rw [openLabel, TopicSource.label, hwords]
  change ({ between done rule with
    document := (between done rule).document.alterTopic s.name (addEdges none s.fields)
    topic := s.name
    rule := none } : Reading) = _
  rw [halter]
  rfl

theorem legible_of_mem {topics : List TopicSource} (h : Printable topics) {s : TopicSource}
    (hs : s ∈ topics) {c : Char × Spread} (hc : c ∈ s.commands) : Legible c where
  neat := by
    have hneat := h.neat s hs
    rw [TopicSource.commands, List.mem_append, List.mem_cons] at hc
    rcases hc with (rfl | hrule) | hlast
    · have hlabel := neat_intercalate (List.cons_ne_nil _ _) (isName_label hneat)
      exact List.forall_mem_cons.mpr ⟨hlabel, List.forall_mem_nil _⟩
    · obtain ⟨r, hr, hc⟩ := List.mem_flatMap.mp hrule
      exact (hneat.rules r hr).commands c hc
    · obtain rfl := List.mem_singleton.mp hlast
      have htopic : Neat "topic" := ⟨by decide, by decide⟩
      exact List.forall_mem_cons.mpr ⟨htopic, List.forall_mem_nil _⟩
  noEnd line hline := h.noEnd line
    (List.mem_flatMap.mpr ⟨s, hs, TopicSource.lines_subset hc hline⟩)
  noComment := h.noComment c (List.mem_flatMap.mpr ⟨s, hs, hc⟩)

/-- A printed topic is read as it is meant. -/
theorem reads_topic (hlenient : settings.strict = false) (hfold : settings.foldCase = false)
    {topics : List TopicSource} (h : Printable topics) {s : TopicSource} (hs : s ∈ topics)
    (hname : s.name ∉ done.map Prod.fst) {below : List Text} (hbelow : continued below = false)
    (rule : Option (Text × Nat)) : ∃ rule',
      Reads settings source s.lines below (between done rule)
        (between (done ++ [(s.name, s.topic settings.joiner)]) rule') := by
  have hneat := h.neat s hs
  have hlegible : ∀ c ∈ s.commands, Legible c := fun c hc => legible_of_mem h hs hc
  have hrule : ∀ r ∈ s.rules, ∀ c ∈ r.commands, Legible c := fun r hr c hc =>
    hlegible c (List.mem_append_left _ (List.mem_cons_of_mem _ (List.mem_flatMap.mpr ⟨r, hr, hc⟩)))
  have hprevious : ∀ r ∈ s.rules, ∀ line ∈ r.previousLines, ¬ has "*/" line := fun r hr line hline =>
    h.noEnd line (List.mem_flatMap.mpr ⟨s, hs, TopicSource.rule_lines_subset hr
      (r.previousLines_subset hline)⟩)
  have hlast : continued (("< topic" : Text) :: below) = false := rfl
  have hbelow' := continued_rules hneat.rules hlast
  have hlabel := hlegible ('>', { first := s.label }) (List.mem_append_left _ List.mem_cons_self)
  have hclose := hlegible ('<', { first := "topic" }) (List.mem_append_right _ List.mem_cons_self)
  have hopening : Leads '>' := ⟨by decide, by decide, by decide, by decide⟩
  have hclosing : Leads '<' := ⟨by decide, by decide, by decide, by decide⟩
  have htext : ∀ t : Text, Spread.text settings.joiner { first := t } = t := fun t => by
    simp [Spread.text, List.intercalate]
  rw [← List.singleton_append, ← List.append_assoc] at hbelow'
  have hopened : Reads settings source [('>' :: ' ' :: s.label)]
      (s.rules.flatMap RuleSource.lines ++ [("< topic" : Text)] ++ below) (between done rule)
      (within done s.name { includes := s.includes, inherits := s.inherits } none) := by
    refine reads_command hlenient hfold ⟨rfl, rfl⟩ rfl rfl hopening hlabel (List.forall_mem_nil _)
      (gather_of_not_continued hbelow' '>' settings.joiner) fun n => congrArg Except.ok ?_
    rw [htext, hfold]
    exact openLabel_label hneat hname rule
  obtain ⟨rule', hrules⟩ := reads_rules hlenient hfold hname hneat.rules hrule hprevious hlast none
  have hclosed : Reads settings source [("< topic" : Text)] below
      (within done s.name (s.topic settings.joiner) rule')
      (between (done ++ [(s.name, s.topic settings.joiner)]) rule') := by
    refine reads_command hlenient hfold ⟨rfl, rfl⟩ rfl rfl hclosing hclose (List.forall_mem_nil _)
      (gather_of_not_continued hbelow '<' settings.joiner) fun n => congrArg Except.ok ?_
    rw [htext]
    rfl
  have hinside : Reads settings source (s.rules.flatMap RuleSource.lines ++ [("< topic" : Text)]) below
      (within done s.name { includes := s.includes, inherits := s.inherits } none)
      (between (done ++ [(s.name, s.topic settings.joiner)]) rule') := hrules.append hclosed
  exact ⟨rule', hopened.append hinside⟩

theorem steps_topics (hlenient : settings.strict = false) (hfold : settings.foldCase = false)
    {topics : List TopicSource} (h : Printable topics) {rest : List TopicSource}
    (hrest : rest ⊆ topics)
    (hnodup : (done.map Prod.fst ++ rest.map (·.name)).Nodup) (rule : Option (Text × Nat)) (n : Nat) :
    ∃ rule', steps settings source n (rest.flatMap (·.lines)) (between done rule) =
      .ok (between (done ++ rest.map fun s => (s.name, s.topic settings.joiner)) rule') := by
  induction rest generalizing done rule n with
  | nil =>
    refine ⟨rule, ?_⟩
    rw [List.map_nil, List.append_nil]
    rfl
  | cons s rest ih =>
    rw [List.cons_subset] at hrest
    have hname : s.name ∉ done.map Prod.fst := fun hmem =>
      (List.nodup_append.mp hnodup).2.2 s.name hmem s.name List.mem_cons_self rfl
    have hbelow : continued (rest.flatMap (·.lines)) = false := by
      cases rest with
      | nil => rfl
      | cons next rest =>
        have hlabel : Legible ('>', { first := next.label }) :=
          legible_of_mem h (hrest.2 List.mem_cons_self) (List.mem_append_left _ List.mem_cons_self)
        exact continued_line hlabel.neat ⟨by decide, by decide, by decide, by decide⟩ _
    have hnodup' : ((done ++ [(s.name, s.topic settings.joiner)]).map Prod.fst ++
        rest.map (·.name)).Nodup := by
      simpa using hnodup
    obtain ⟨rule₁, hs⟩ := reads_topic hlenient hfold h hrest.1 hname hbelow rule
    obtain ⟨rule', hsteps⟩ := ih hrest.2 hnodup' rule₁ (n + s.lines.length)
    refine ⟨rule', ?_⟩
    rw [List.flatMap_cons, hs, hsteps]
    simp

end Reading

open Reading

/-- A lenient reader reads what has been printed, and nothing else. -/
theorem ofText_printed {settings : Settings} (hlenient : settings.strict = false)
    (hfold : settings.foldCase = false) {topics : List TopicSource} (h : Printable topics)
    {code : Text} (hcode : Prints code topics) (source : Text) :
    Document.ofText settings source code =
      .ok { topics := ⟨topics.map fun s => (s.name, s.topic settings.joiner)⟩ } := by
  obtain ⟨rule, hsteps⟩ : ∃ rule,
      steps settings source 1 (topics.flatMap (·.lines)) (between [] none) =
      .ok (between (topics.map fun s => (s.name, s.topic settings.joiner)) rule) := by
    have hnodup : (([] : List (Text × Topic)).map Prod.fst ++ topics.map (·.name)).Nodup := h.nodup
    exact steps_topics hlenient hfold h (List.Subset.refl _) hnodup none 1
  have hfilter : UpToNumber (steps settings source 1 (pieces (· = '\n') code) (between [] none))
      (steps settings source 1 (topics.flatMap (·.lines)) (between [] none)) := by
    rw [← hcode]
    exact steps_filter 1 1 _ _
  rw [hsteps] at hfilter
  have hread : steps settings source 1 (pieces (· = '\n') code) {} = _ := hfilter.eq_ok
  rw [Document.ofText, hread]
  rfl

/-- Talk about the weather. -/
def smallTalk : List TopicSource := [
  { name := "weather", includes := ["sun"], inherits := ["rain", "sun"],
    rules := [
      { pattern := { first := "how is", more := ["the", "weather"] }, previous := "hello // *"
        conditions := [{ first := "<get sky> == blue => Fine." }]
        replies := [{ first := "It", more := ["rains // a lot."] }, { first := "So so." }]
        redirect := some { first := "and you" } },
      { pattern := { first := "and you" }, replies := [{ first := "Well." }] }] },
  { name := "sun" }]

theorem smallTalk_read : Printable smallTalk ∧
    Document.ofText { joiner := .space } "" "> topic weather includes sun inherits rain sun

      + how is\n ^ the\n\n ^ weather\n % hello // *
        * <get sky> == blue => Fine.\n - It\n ^ rains // a lot.\n - So so.\n @ and you\n
      + and you\n - Well.\n < topic\n\n > topic sun\n < topic" =
    .ok { topics := ⟨smallTalk.map fun s => (s.name, s.topic .space)⟩ } := by
  have hprintable : Printable smallTalk := by
    decide +kernel
  exact ⟨hprintable, ofText_printed rfl rfl hprintable (by unfold Prints; decide +kernel) ""⟩

end Dialogue
