import Dialogue.Proofs.Inert
import Dialogue.Proofs.Life
import Dialogue.Proofs.Lowered
import Dialogue.Proofs.Nesting
import Dialogue.Proofs.Passes
import Dialogue.Proofs.Playbook
import Dialogue.Proofs.Users
import Dialogue.Proofs.Words

/-! Variables and past messages in patterns. A value is put into a pattern in a form of its own, which
need not be the one that a message has. -/
namespace Dialogue

open Text

/-! ### Literal expressions -/

namespace Expression

theorem here_drop_finish {t : Text} {n : Nat} (h : n ≤ t.length) :
    Courses.here ((finish t).drop n) = if n = t.length then some {} else none := by
  induction t generalizing n with
  | nil =>
    obtain rfl := Nat.le_zero.mp h
    rfl
  | cons c t ih =>
    cases n with
    | zero => rfl
    | succ n =>
      rw [finish, List.drop_succ_cons, ih (Nat.le_of_succ_le_succ h)]
      simp

theorem here_literalCourses (s t : Text) :
    Courses.here (literalCourses s t (finish t)) = if s = t then some {} else none := by
  cases t with
  | nil => cases s <;> rfl
  | cons c t =>
    show (if s.isPrefixOf (c :: t) then Courses.here ((finish (c :: t)).drop s.length) else none) = _
    by_cases hstart : s <+: c :: t
    · have hbegins := List.isPrefixOf_iff_prefix.mpr hstart
      rw [if_pos hbegins, here_drop_finish hstart.length_le]
      have hwhole : s.length = (c :: t).length ↔ s = c :: t :=
        ⟨hstart.eq_of_length, fun heq => congrArg List.length heq⟩
      simp only [hwhole]
    · have hother : ¬ s.isPrefixOf (c :: t) := fun h => hstart <| List.isPrefixOf_iff_prefix.mp h
      rw [if_neg hother, if_neg]
      rintro rfl
      exact hstart (List.prefix_refl _)

/-- A literal matches itself alone. -/
theorem match?_literal (s t : Text) :
    (literal s).match? t = if s = t then some [] else none := by
  rw [match?, courses, here_literalCourses]
  split <;> rfl

end Expression

/-! ### Patterns that are a tag -/

namespace Pattern

theorem tokensFrom_skip (t : Text) : tokensFrom t.length t = [] := by
  induction t with
  | nil => rfl
  | cons c t ih => exact ih

theorem cutAt?_append {sep : Char → Bool} {body : Text} (h : ∀ c ∈ body, sep c = false) {d : Char}
    (hd : sep d = true) (rest : Text) : cutAt? sep (body ++ d :: rest) = some (body, rest) := by
  induction body with
  | nil =>
    rw [List.nil_append, cutAt?, if_pos hd]
  | cons c body ih =>
    rw [List.forall_mem_cons] at h
    rw [List.cons_append, cutAt?, h.1, ih h.2]
    rfl

theorem items_tag {body : Text} (h : '>' ∉ body) :
    items ('<' :: (body ++ ['>'])) = .ok [.tag body] := by
  have hcut : cutAt? (· = '>') (body ++ ['>']) = some (body, []) := by
    refine cutAt?_append (fun c hc => ?_) (by simp) []
    simpa using fun heq : c = '>' => h (heq ▸ hc)
  have hrest : tokensFrom (body.length + 1) (body ++ ['>']) = [] := by
    have hskip := tokensFrom_skip (body ++ ['>'])
    rwa [List.length_append] at hskip
  have htokens : tokensFrom 0 ('<' :: (body ++ ['>'])) = [.tag body] := by
    simp only [tokensFrom, hcut, hrest]
  rw [items, htokens]
  rfl

theorem join_char (t : Text) : join (t.map .char) = .literal t := by
  induction t with
  | nil => rfl
  | cons c t ih => rw [List.map_cons, join, ih]

theorem expression_tag (s : Surroundings) (body : Text) :
    expression s [.tag body] = .literal (s.value body) := by
  rw [← join_char]
  rfl

end Pattern

namespace Weight

/-- An annotation begins with a bracket. -/
theorem first?_append {start t : Text} (hstart : '\x7b' ∉ start) (ht : first? t = none) :
    first? (start ++ t) = none := by
  rw [first?_eq_none_iff] at ht ⊢
  induction start with
  | nil => exact ht
  | cons c start ih =>
    rw [List.mem_cons, not_or] at hstart
    intro u hu
    rcases List.suffix_cons_iff.mp hu with rfl | hu
    · exact opens_read _ fun hhead => hstart.1 (Option.some.inj hhead).symm
    · exact ih hstart.2 u hu

theorem read_mark {digits : Text} (h : ∀ c ∈ digits, isDigit c) (rest : Text) :
    read ("\x7bweight=" ++ (digits ++ '\x7d' :: rest)) =
      if digits = [] then none else some (digits, rest) := by
  have hclosing : isDigit '\x7d' = false := by decide
  obtain ⟨htake, hdrop⟩ := read_while h hclosing rest
  have hrest : List.isPrefixOf? ("\x7bweight=" : Text) ("\x7bweight=" ++ (digits ++ '\x7d' :: rest)) =
      some (digits ++ '\x7d' :: rest) := List.isPrefixOf?_eq_some_iff_append_eq.mpr rfl
  rw [read, hrest, Option.bind_eq_bind, Option.bind_some]
  simp only [htake, hdrop]
  cases digits with
  | nil => rfl
  | cons c digits => rfl

/-- What is no part of an annotation completes none. -/
theorem first?_concat {t : Text} {c : Char} (hc : c ≠ '\x7d') (ht : first? t = none) :
    first? (t ++ [c]) = none := by
  rw [first?_eq_none_iff] at ht ⊢
  intro u hsuffix
  rcases List.suffix_concat_iff.mp hsuffix with rfl | ⟨u, rfl, hu⟩
  · rfl
  · cases hread : read (u ++ [c]) with
    | none => rfl
    | some found =>
      obtain ⟨digits, rest⟩ := found
      obtain ⟨hmark, hdigits⟩ := @of_readNumber "\x7bweight=" _ digits rest hread
      rcases List.eq_nil_or_concat rest with rfl | ⟨rest, d, rfl⟩
      · rw [← List.append_assoc] at hmark
        exact absurd (List.singleton_inj.mp (List.append_inj' hmark rfl).2) hc
      · rw [List.concat_eq_append, ← List.cons_append, ← List.append_assoc, ← List.append_assoc] at hmark
        obtain rfl := (List.append_inj' hmark rfl).1
        have hnone := ht _ hu
        rw [List.append_assoc, read_mark hdigits] at hnone
        rw [hmark, List.append_assoc, List.append_assoc, List.cons_append, read_mark hdigits] at hread
        split at hread
        · cases hread
        · rename_i hne
          rw [if_neg hne] at hnone
          cases hnone

end Weight

namespace Selection

variable {s : Surroundings} {strict : Bool} {message : Text}

theorem ofPattern_tag {body : Text} (hclose : '>' ∉ body) (hweight : Weight.first? body = none) :
    Matcher.ofPattern s strict ('<' :: (body ++ ['>'])) =
      match s.engine.refusal? (.literal (s.value body)) with
      | some l => if strict then .error (.limit l) else .ok (.exactly ('<' :: (body ++ ['>'])))
      | none => .ok (.expression (.literal (s.value body))) := by
  have hopen : Weight.first? (['<'] ++ (body ++ ['>'])) = none :=
    Weight.first?_append (by decide) (Weight.first?_concat (by decide) hweight)
  have htrim : trim ('<' :: (body ++ ['>'])) = '<' :: (body ++ ['>']) := by
    have hends : isSpace '<' = false ∧ isSpace '>' = false := by decide
    simp [trim, trimStart, trimEnd, hends.1, hends.2]
  have hstrip : Weight.strip ('<' :: (body ++ ['>'])) = '<' :: (body ++ ['>']) :=
    (Weight.strip_of_none hopen).trans htrim
  have hsigns : Pattern.isVerbatim ('<' :: (body ++ ['>'])) = false := by
    simp [Pattern.isVerbatim]
  have hstar : '<' :: (body ++ ['>']) ≠ ['*'] := by simp
  rw [Matcher.ofPattern, hstrip, hsigns, htrim, if_neg hstar, Matcher.ofSigns, Pattern.items_tag hclose]
  simp only [Except.mapError, bind, Except.bind, Pattern.expression_tag]
  cases s.engine.refusal? (.literal (s.value body)) <;> rfl

/-- A pattern that is a tag matches the value of the tag, unless the engine refuses the value. -/
theorem tryPattern_tag {body : Text} (hclose : '>' ∉ body) (hweight : Weight.first? body = none)
    (hmessage : '<' ∉ message) :
    (∃ stars, tryPattern s strict ('<' :: (body ++ ['>'])) message = .ok (some stars)) ↔
      s.value body = message ∧ s.engine.refusal? (.literal message) = none := by
  rw [tryPattern, ofPattern_tag hclose hweight]
  cases hrefusal : s.engine.refusal? (.literal (s.value body)) with
  | some l =>
    have hfalse : ¬ (s.value body = message ∧ s.engine.refusal? (.literal message) = none) := by
      rintro ⟨rfl, haccepted⟩
      rw [haccepted] at hrefusal
      cases hrefusal
    have hother : '<' :: (body ++ ['>']) ≠ message := by
      rintro rfl
      exact hmessage List.mem_cons_self
    rw [iff_false_right hfalse]
    cases strict with
    | true => simp
    | false => simp [Matcher.captures, hother]
  | none =>
    simp only [Matcher.captures, Expression.match?_literal]
    by_cases hsame : s.value body = message
    · rw [hsame] at hrefusal ⊢
      simp [hrefusal]
    · simp [hsame]

end Selection

/-! ### Values of tags -/

namespace Surroundings

variable (s : Surroundings) {x : Text}

theorem value_bot (hx : Neat x) :
    s.value ("bot " ++ x) = ((s.botVars.find? x).map s.canonical).getD [] := by
  have htrim : trim ("bot " ++ x) = "bot " ++ x := (Neat.append (a := "bot") (by decide) hx).trim
  have hbot : List.isPrefixOf? ("bot " : Text) ("bot " ++ x) = some x := rfl
  rw [value, htrim]
  simp only [hbot, Option.map_some, hx.trim]

theorem value_get (hx : Neat x) :
    s.value ("get " ++ x) = ((s.userVars.find? x).map s.canonical).getD undefinedText := by
  have htrim : trim ("get " ++ x) = "get " ++ x := (Neat.append (a := "get") (by decide) hx).trim
  have hbot : List.isPrefixOf? ("bot " : Text) ("get " ++ x) = none := rfl
  have hget : List.isPrefixOf? ("get " : Text) ("get " ++ x) = some x := rfl
  rw [value, htrim]
  simp only [hbot, hget, Option.map_some, Option.map_none, hx.trim]

theorem value_input : s.value "input1" = s.canonical (s.history.input 0) := rfl

end Surroundings

/-! ### Two forms of a text -/

namespace Text

variable {t : Text} {c : Char}

theorem exists_piece {sep : Char → Bool} (hc : c ∈ t) (hsep : sep c = false) :
    ∃ piece ∈ pieces sep t, c ∈ piece := by
  induction t with
  | nil => cases hc
  | cons d t ih =>
    have hrest : c ∈ t → ∃ piece ∈ pieces sep t, c ∈ piece := ih
    rw [pieces]
    split
    · rename_i hd
      rcases List.mem_cons.mp hc with rfl | hc
      · rw [hsep] at hd
        cases hd
      · obtain ⟨piece, hpiece, hmem⟩ := hrest hc
        exact ⟨piece, List.mem_cons_of_mem _ hpiece, hmem⟩
    · cases hp : pieces sep t with
      | nil => exact absurd hp (pieces_ne_nil sep t)
      | cons first rest =>
        rw [hp] at hrest
        rcases List.mem_cons.mp hc with rfl | hc
        · exact ⟨_, List.mem_cons_self, List.mem_cons_self⟩
        · obtain ⟨piece, hpiece, hmem⟩ := hrest hc
          rcases List.mem_cons.mp hpiece with rfl | hpiece
          · exact ⟨_, List.mem_cons_self, List.mem_cons_of_mem _ hmem⟩
          · exact ⟨piece, List.mem_cons_of_mem _ hpiece, hmem⟩

theorem mem_intercalate {sep : Text} {parts : List Text} {part : Text} (hpart : part ∈ parts)
    (hc : c ∈ part) : c ∈ sep.intercalate parts := by
  induction parts with
  | nil => cases hpart
  | cons first parts ih =>
    cases parts with
    | nil =>
      rw [List.intercalate_singleton]
      exact List.mem_singleton.mp hpart ▸ hc
    | cons next parts =>
      rw [List.intercalate_cons_cons]
      rcases List.mem_cons.mp hpart with rfl | hpart
      · exact List.mem_append_left _ (List.mem_append_left _ hc)
      · exact List.mem_append_right _ (ih hpart)

/-- Only white space is lost between words. -/
theorem mem_collapse (hc : c ∈ t) (hsolid : isSpace c = false) : c ∈ collapse t := by
  obtain ⟨piece, hpiece, hmem⟩ := exists_piece hc hsolid
  refine mem_intercalate (List.mem_filter.mpr ⟨hpiece, ?_⟩) hmem
  simpa using List.ne_nil_of_mem hmem

theorem collapse_collapse (t : Text) : collapse (collapse t) = collapse t := by
  rw [collapse, collapse, words_intercalate fun word hword => isName_of_mem_words hword]

end Text

/-! ### The two forms -/

/-- What a message keeps. -/
def Canon.keeps (utf8 : Bool) (c : Char) : Bool :=
  if utf8 then !isUsualPunctuation c && !isMarkupSign c else isPlain c

/-- What a value keeps. -/
def Surroundings.keeps (utf8 : Bool) (c : Char) : Bool :=
  if utf8 then isWordChar c || isSpace c else isPlain c

/-- In small letters, the text is made of words, white space, and signs that messages lose. -/
def Wordy (v : Text) : Prop :=
  ∀ c ∈ lower v, isWordChar c = true ∨ isSpace c = true ∨ isUsualPunctuation c = true ∨
    isMarkupSign c = true

instance (v : Text) : Decidable (Wordy v) := List.decidableBAll _ (lower v)

/-- No substitution is made, and punctuation is what it is without a choice. -/
structure Canon.IsUsual (c : Canon) : Prop where
  substitution : c.substitution.entries = []
  punctuation : c.utf8 = true → ∀ t, c.punctuation.strip t = t.filter (!isUsualPunctuation ·)

namespace Canon

variable {c : Canon} {v : Text}

theorem format_usual (hc : c.IsUsual) (v : Text) :
    c.format false v = collapse ((lower v).filter (keeps c.utf8)) := by
  rw [format, Substitution.apply, if_pos hc.substitution, clean]
  cases hutf8 : c.utf8 with
  | true =>
    simp only [if_true, hc.punctuation hutf8, List.filter_filter]
    rfl
  | false => rfl

/-- What a value keeps of words and white space, a message keeps too. -/
theorem keeps_of_keeps {utf8 : Bool} {d : Char} (h : Surroundings.keeps utf8 d = true) :
    keeps utf8 d = true := by
  cases utf8 with
  | false => exact h
  | true =>
    have hsigns : ".,!?;:\\<>".toList.all (fun d => !isWordChar d && !isSpace d) := by decide
    simp only [List.all_eq_true, Bool.and_eq_true, Bool.not_eq_true'] at hsigns
    have hlost : isUsualPunctuation d = true ∨ isMarkupSign d = true → d ∈ ".,!?;:\\<>".toList := by
      simp [isUsualPunctuation, isMarkupSign]
      grind
    have habsent : d ∉ ".,!?;:\\<>".toList := fun hd => by
      obtain ⟨hword, hspace⟩ := hsigns d hd
      rw [Surroundings.keeps, if_pos rfl, hword, hspace] at h
      cases h
    have hkept := fun hd => habsent (hlost hd)
    simpa [keeps] using hkept

theorem isLow_of_mem_format (hc : c.IsUsual) {d : Char} (h : d ∈ c.format false v) : IsLow d := by
  rw [format_usual hc] at h
  rcases mem_of_mem_collapse h with rfl | h
  · decide
  · exact isLow_of_mem_lower (List.mem_of_mem_filter h)

end Canon

namespace Surroundings

variable {s : Surroundings} {c : Canon} {v : Text}

theorem canonical_eq (s : Surroundings) (v : Text) :
    s.canonical v = collapse ((lower v).filter (keeps s.utf8)) := by
  rw [canonical]
  cases s.utf8 <;> rfl

theorem keeps_of_wordy {utf8 : Bool} (h : utf8 = true → Wordy v) {d : Char} (hd : d ∈ lower v)
    (hkeeps : Canon.keeps utf8 d = true) : keeps utf8 d = true := by
  cases utf8 with
  | false => exact hkeeps
  | true =>
    simp only [Canon.keeps, keeps, if_true, Bool.and_eq_true, Bool.not_eq_true', Bool.or_eq_true]
      at hkeeps ⊢
    rcases h rfl d hd with hword | hspace | hpunctuation | hmarkup
    · exact .inl hword
    · exact .inr hspace
    · rw [hkeeps.1] at hpunctuation
      cases hpunctuation
    · rw [hkeeps.2] at hmarkup
      cases hmarkup

/-- Where all that is left of the value is words, a message with the same text has that form too. -/
theorem canonical_of_wordy (hc : c.IsUsual) (hutf8 : c.utf8 = s.utf8) (h : s.utf8 = true → Wordy v) :
    s.canonical v = c.format false v := by
  rw [canonical_eq, Canon.format_usual hc, hutf8]
  refine congrArg collapse (List.filter_congr fun d hd => ?_)
  exact Bool.eq_iff_iff.mpr ⟨Canon.keeps_of_keeps, keeps_of_wordy h hd⟩

/-- So has what is remembered of that message. -/
theorem canonical_format_of_wordy (hc : c.IsUsual) (hutf8 : c.utf8 = s.utf8)
    (h : s.utf8 = true → Wordy v) : s.canonical (c.format false v) = c.format false v := by
  have hlower : lower (c.format false v) = c.format false v :=
    lower_of_isLow fun d hd => Canon.isLow_of_mem_format hc hd
  have hfilter : (c.format false v).filter (keeps s.utf8) = c.format false v := by
    refine List.filter_eq_self.mpr fun d hd => ?_
    rw [Canon.format_usual hc, hutf8] at hd
    rcases mem_of_mem_collapse hd with rfl | hd
    · cases s.utf8 <;> decide
    · obtain ⟨hd, hkeeps⟩ := List.mem_filter.mp hd
      exact keeps_of_wordy h hd hkeeps
  rw [canonical_eq, hlower, hfilter, Canon.format_usual hc, collapse_collapse]

/-- No value has the form of a message with other signs in it. -/
theorem wordy_of_canonical (hc : c.IsUsual) (hutf8 : c.utf8 = s.utf8) {u : Text}
    (h : s.canonical u = c.format false v) : s.utf8 = true → Wordy v := by
  intro hall d hd
  by_cases hspace : isSpace d = true
  · exact .inr (.inl hspace)
  · by_cases hkeeps : Canon.keeps true d = true
    · have hmem : d ∈ c.format false v := by
        rw [Canon.format_usual hc, hutf8, hall]
        exact mem_collapse (List.mem_filter.mpr ⟨hd, hkeeps⟩) (Bool.eq_false_iff.mpr hspace)
      rw [← h, canonical_eq, hall] at hmem
      rcases mem_of_mem_collapse hmem with rfl | hmem
      · exact absurd rfl hspace
      · have hword := (List.mem_filter.mp hmem).2
        simp only [keeps, if_true, Bool.or_eq_true] at hword
        exact hword.imp_right .inl
    · simp only [Canon.keeps, if_true, Bool.and_eq_true, Bool.not_eq_true', not_and_or,
        Bool.not_eq_false] at hkeeps
      exact .inr (.inr hkeeps)

end Surroundings

/-! ### Bots -/

/-- A name that a tag can spell. -/
structure IsTagName (x : Text) : Prop where
  neat : Neat x
  closing : '>' ∉ x
  weight : Weight.first? x = none

/-- The pattern matches, where the user stands with the bot. -/
def Matches (b : Bot) (p : Playbook) (user pattern message : Text) : Prop :=
  ∃ stars, Selection.tryPattern (Selection.surroundings b p user) b.settings.strict pattern message =
    .ok (some stars)

/-- What a value has to be so that a pattern can match the message of the same text. The engine has to
take it. -/
structure Bot.Shares (b : Bot) (p : Playbook) (v : Text) : Prop where
  wordy : b.settings.utf8 = true → Wordy v
  accepted : b.settings.engine.refusal? (.literal (p.canon.format false v)) = none

/-- Tags that stand for a text match the message of that text, if they can. -/
structure Interpolates (b : Bot) (p : Playbook) (user v : Text) : Prop where
  get : ∀ x, IsTagName x → b.roster.var? user x = some v →
    (Matches b p user ("<get " ++ x ++ ">") (p.canon.format false v) ↔ b.Shares p v)
  bot : ∀ x, IsTagName x → b.vars.find? x = some v →
    (Matches b p user ("<bot " ++ x ++ ">") (p.canon.format false v) ↔ b.Shares p v)
  input : b.playbook = some p → ∀ draws e, (b.reply draws user v).result = .ok e → ∀ q,
    (Matches (b.reply draws user v).bot q user "<input1>" (p.canon.format false v) ↔ b.Shares p v)

section

variable {b : Bot} {p : Playbook} {user v : Text}

theorem IsTagName.spells {x : Text} (h : IsTagName x) {kind : Text}
    (hkind : '>' ∉ kind ∧ '\x7b' ∉ kind) :
    '>' ∉ kind ++ x ∧ Weight.first? (kind ++ x) = none := by
  refine ⟨fun hmem => ?_, Weight.first?_append hkind.2 h.weight⟩
  exact (List.mem_append.mp hmem).elim hkind.1 h.closing

theorem Playbook.isUsual_canon {settings : Settings} {depth : Nat} {s : Script}
    (hp : ofScript settings depth s = .ok p) (hsubstitutions : s.substitutions = {})
    (hpunctuation : settings.utf8 = true → settings.punctuation = ({} : Settings).punctuation) :
    p.canon.IsUsual ∧ p.canon.utf8 = settings.utf8 := by
  obtain rfl := eq_build hp
  refine ⟨⟨?_, fun hutf8 t => ?_⟩, rfl⟩
  · exact entries_substitution (congrArg Table.entries hsubstitutions) settings depth
  · show (settings.engine.stripper settings.punctuation).strip t = _
    rw [hpunctuation hutf8]
    exact congrArg (Stripper.strip · t) settings.engine.stripper_usual

/-- One tag that is matched with a message. -/
theorem matches_tag {c : Bot} {q : Playbook} (hc : p.canon.IsUsual)
    (hutf8 : p.canon.utf8 = b.settings.utf8) (hsettings : c.settings = b.settings) {body value : Text}
    (hbody : '>' ∉ body ∧ Weight.first? body = none)
    (hvalue : (Selection.surroundings c q user).value body =
      (Selection.surroundings c q user).canonical value)
    (hshared : ((Selection.surroundings c q user).utf8 = true → Wordy v) →
      (Selection.surroundings c q user).canonical value = p.canon.format false v) :
    Matches c q user ('<' :: (body ++ ['>'])) (p.canon.format false v) ↔ b.Shares p v := by
  have hs : (Selection.surroundings c q user).utf8 = b.settings.utf8 := by
    rw [← hsettings]
    rfl
  have hopening : '<' ∉ p.canon.format false v := fun hmem => by
    have hadmits := Canon.admits_of_mem_format hmem
    rw [Canon.Admits] at hadmits
    split at hadmits
    · exact absurd hadmits (by decide)
    · exact absurd hadmits (by decide)
  have hengine : (Selection.surroundings c q user).engine = b.settings.engine :=
    congrArg Settings.engine hsettings
  rw [Matches, Selection.tryPattern_tag hbody.1 hbody.2 hopening, hvalue, hengine]
  constructor
  · rintro ⟨hsame, haccepted⟩
    have hwordy := Surroundings.wordy_of_canonical hc (hutf8.trans hs.symm) hsame
    exact ⟨fun hall => hwordy (hs.trans hall), haccepted⟩
  · exact fun h => ⟨hshared fun hall => h.wordy (hs.symm.trans hall), h.accepted⟩

/-- Messages and values share one form as far as they are made of words: every value in ASCII, and among
the letters of all scripts those without symbols that messages keep. -/
theorem interpolates {depth : Nat} {s : Script} (hp : Playbook.ofScript b.settings depth s = .ok p)
    (hsubstitutions : s.substitutions = {})
    (hpunctuation : b.settings.utf8 = true → b.settings.punctuation = ({} : Settings).punctuation)
    (user v : Text) : Interpolates b p user v := by
  obtain ⟨hc, hutf8⟩ := Playbook.isUsual_canon hp hsubstitutions hpunctuation
  refine ⟨fun x hx hv => ?_, fun x hx hv => ?_, fun hb draws e he q => ?_⟩
  · show Matches b p user ('<' :: (("get " ++ x) ++ ['>'])) _ ↔ _
    obtain ⟨profile, hprofile, hv⟩ := Option.bind_eq_some_iff.mp hv
    refine matches_tag hc hutf8 rfl (hx.spells (by decide)) ?_ fun h =>
      Surroundings.canonical_of_wordy hc hutf8 h
    have hvars : (Selection.surroundings b p user).userVars = profile.vars := by
      rw [Selection.surroundings, hprofile]
      rfl
    rw [Surroundings.value_get _ hx.neat, hvars, hv]
    rfl
  · show Matches b p user ('<' :: (("bot " ++ x) ++ ['>'])) _ ↔ _
    refine matches_tag hc hutf8 rfl (hx.spells (by decide)) ?_ fun h =>
      Surroundings.canonical_of_wordy hc hutf8 h
    have hvars : (Selection.surroundings b p user).botVars = b.vars := rfl
    rw [Surroundings.value_bot _ hx.neat, hvars, hv]
    rfl
  · show Matches _ q user ('<' :: (("input1" : Text) ++ ['>'])) _ ↔ _
    have hlater := Bot.later_reply b draws user v
    obtain ⟨reply, r, hrun, rfl⟩ := Bot.answered_of_ok hb he
    have hinput : (Selection.surroundings (b.reply draws user v).bot q user).history.input 0 =
        p.canon.format false v := by
      rw [Bot.reply_of_text hb hrun, Selection.surroundings]
      show History.input (Option.getD ((r.bot.roster.alter user _).profile? user) {}).history 0 = _
      rw [Roster.profile?_alter_self]
      rfl
    have hvalue := (Selection.surroundings (b.reply draws user v).bot q user).value_input
    rw [hinput] at hvalue
    refine matches_tag hc hutf8 hlater.settings (by decide) hvalue fun h => ?_
    refine Surroundings.canonical_format_of_wordy hc (hutf8.trans ?_) h
    exact congrArg Settings.utf8 hlater.settings.symm

end

/-- Whatever is said is answered. -/
def chatting : Script :=
  { topics := ⟨[("random", { rules := [{ pattern := "*", replies := ["Hello."] }] })]⟩ }

def chatbook (utf8 : Bool) : Playbook := .build { utf8 } 50 chatting

/-- The same title for the bot and for its user. -/
def titled (utf8 : Bool) (title : Text) : Bot where
  settings := { utf8 }
  script := chatting
  playbook := some (chatbook utf8)
  vars := ⟨[("title", title)]⟩
  roster := ({} : Roster).setVar "user" "title" (some title)

theorem titled_sorted (utf8 : Bool) (title : Text) :
    Playbook.ofScript (titled utf8 title).settings 50 chatting = .ok (chatbook utf8) :=
  Playbook.ofScript_of_lenient rfl 50 chatting

theorem isTagName_title : IsTagName "title" := ⟨by decide, by decide, by decide⟩

theorem titled_interpolates : (chatbook true).canon.format false "Über, uns!" = "über uns" ∧
    Matches (titled true "Über, uns!") (chatbook true) "user" "<get title>" "über uns" ∧
    Matches (titled true "Über, uns!") (chatbook true) "user" "<bot title>" "über uns" ∧
    Matches ((titled true "Über, uns!").reply [] "user" "Über, uns!").bot (chatbook true) "user"
      "<input1>" "über uns" := by
  have hform : (chatbook true).canon.format false "Über, uns!" = "über uns" := by decide +kernel
  have haccepted : Engine.standard.refusal? (.literal "über uns") = none := by decide +kernel
  have hwordy : Wordy "Über, uns!" := by decide +kernel
  have hshares : (titled true "Über, uns!").Shares (chatbook true) "Über, uns!" :=
    ⟨fun _ => hwordy, by rwa [hform]⟩
  have hreply : ((titled true "Über, uns!").reply [] "user" "Über, uns!").result = .ok
      { reply := "Hello."
        message := "über uns"
        steps := [⟨0, "random", "über uns", some "*", false, 1, false⟩]
        tried := 1 } := Answering.ok_of_toOption (by decide +kernel)
  obtain ⟨hget, hbot, hinput⟩ :=
    interpolates (titled_sorted true "Über, uns!") rfl (fun _ => rfl) "user" "Über, uns!"
  rw [hform] at hget hbot hinput
  exact ⟨hform, (hget _ isTagName_title (by decide +kernel)).mpr hshares,
    (hbot _ isTagName_title rfl).mpr hshares, (hinput rfl _ _ hreply _).mpr hshares⟩

/-- A name in small letters is a message as it stands. -/
theorem Canon.format_name {c : Canon} (hc : c.IsUsual) {t : Text} (hname : IsName t)
    (h : ∀ d ∈ t, IsLow d ∧ keeps c.utf8 d = true) : c.format false t = t := by
  have hfilter : t.filter (keeps c.utf8) = t := List.filter_eq_self.mpr fun d hd => (h d hd).2
  rw [format_usual hc, lower_of_isLow fun d hd => (h d hd).1, hfilter, collapse, words,
    pieces_solid hname.solid]
  simp [hname.ne]

/-- Letters that are too many for a pattern. -/
def long : Text := List.replicate 340000 'a'

theorem byteSize_replicate (n : Nat) : byteSize (List.replicate n 'a') = n := by
  induction n with
  | zero => rfl
  | succ n ih =>
    rw [List.replicate_succ, byteSize, String.ofList_cons, String.utf8ByteSize_append,
      String.utf8ByteSize_singleton, Nat.add_comm]
    exact congrArg (· + 1) ih

theorem size_long : sizeLimit < (Expression.literal long).size := by
  rw [Expression.size, long, byteSize_replicate]
  decide

theorem format_long : (chatbook false).canon.format false long = long := by
  obtain ⟨hc, -⟩ := Playbook.isUsual_canon (titled_sorted false long) rfl (fun _ => rfl)
  have hletters : ∀ d ∈ long, d = 'a' := fun d hd => List.eq_of_mem_replicate hd
  have hne : long ≠ [] := List.ne_nil_of_length_pos (by rw [long, List.length_replicate]; decide)
  refine Canon.format_name hc ⟨hne, fun d hd => ?_⟩ fun d hd => ?_
  · rw [hletters d hd]
    decide
  · rw [hletters d hd]
    exact ⟨by decide, by decide⟩

/-- A message keeps its apostrophe and a value does not, so they do not match; and no pattern holds a
value of any size. -/
theorem apostrophe_not_interpolated :
    (chatbook true).canon.format false "O'Clock" = "o'clock" ∧
    (titled true "O'Clock").roster.var? "user" "title" = some "O'Clock" ∧
    (titled true "O'Clock").vars.find? "title" = some "O'Clock" ∧
    ((titled true "O'Clock").reply [] "user" "O'Clock").result.toOption.isSome = true ∧
    ¬ Matches (titled true "O'Clock") (chatbook true) "user" "<get title>" "o'clock" ∧
    ¬ Matches (titled true "O'Clock") (chatbook true) "user" "<bot title>" "o'clock" ∧
    ¬ Matches ((titled true "O'Clock").reply [] "user" "O'Clock").bot (chatbook true) "user"
      "<input1>" "o'clock" ∧
    (titled false long).roster.var? "user" "title" = some long ∧
    (chatbook false).canon.format false long = long ∧
    ¬ Matches (titled false long) (chatbook false) "user" "<get title>" long := by
  have hnone : ∀ {b : Bot} {pattern : Text}, (Selection.tryPattern
      (Selection.surroundings b (chatbook true) "user") b.settings.strict pattern "o'clock").toOption =
        some none → ¬ Matches b (chatbook true) "user" pattern "o'clock" := by
    rintro b pattern h ⟨stars, hstars⟩
    rw [hstars] at h
    cases h
  refine ⟨by decide +kernel, by decide +kernel, by decide +kernel, by decide +kernel,
    hnone (by decide +kernel), hnone (by decide +kernel), hnone (by decide +kernel), rfl,
    format_long, ?_⟩
  intro hmatches
  have hopening : '<' ∉ long := fun hmem => absurd (List.eq_of_mem_replicate hmem) (by decide)
  have hbody : '>' ∉ ("get title" : Text) ∧ Weight.first? "get title" = none := by decide
  obtain ⟨l, hrefusal⟩ := Engine.standard_refuses size_long
  have haccepted := ((Selection.tryPattern_tag hbody.1 hbody.2 hopening).mp hmatches).2
  exact nomatch hrefusal.symm.trans haccepted

end Dialogue
