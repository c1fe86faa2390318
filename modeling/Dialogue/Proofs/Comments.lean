import Dialogue.Proofs.Inert
import Dialogue.Proofs.Lines
import Mathlib.Data.List.DropRight

/-! What a reader makes of comments. A comment on a line of its own is nothing but the end of what
continues the lines above it, and a comment after a command is nothing at all, as long as the command
continues no other one and does not end in a comment sign itself. -/
namespace Dialogue

namespace Text

variable {mark s t before after : Text}

/-- A mark is found where it is found without what follows. -/
theorem cut?_append (h : cut? mark s = some (before, after)) (t : Text) :
    cut? mark (s ++ t) = some (before, after ++ t) := by
  induction s generalizing before with
  | nil =>
    rw [cut?] at h
    split at h
    · rename_i hmark
      cases h
      subst hmark
      cases t <;> rfl
    · cases h
  | cons c s ih =>
    rw [cut?] at h
    rw [List.cons_append, cut?, ← List.cons_append]
    cases hp : mark.isPrefixOf? (c :: s) with
    | some rest =>
      rw [hp] at h
      cases h
      have happend := List.isPrefixOf?_eq_some_iff_append_eq.mp hp
      rw [← happend, List.append_assoc, List.isPrefixOf?_eq_some_iff_append_eq.mpr rfl]
    | none =>
      rw [hp] at h
      obtain ⟨⟨before', after'⟩, hcut, hcons⟩ := Option.map_eq_some_iff.mp h
      cases hcons
      have hinside : mark <:+: s := has_iff.mp (by rw [has, hcut]; rfl)
      have hnot : mark.isPrefixOf? (c :: s ++ t) = none := by
        cases hq : mark.isPrefixOf? (c :: s ++ t) with
        | none => rfl
        | some rest =>
          -- The mark fits into `s`, so it cannot reach into `t` from here.
          have hprefix : mark <+: c :: s ++ t := ⟨rest, List.isPrefixOf?_eq_some_iff_append_eq.mp hq⟩
          have hfits : mark <+: c :: s := List.prefix_of_prefix_length_le hprefix
            (List.prefix_append _ _) (Nat.le_succ_of_le hinside.length_le)
          obtain ⟨rest', hrest'⟩ := hfits
          rw [List.isPrefixOf?_eq_some_iff_append_eq.mpr hrest'] at hp
          cases hp
      rw [hnot, ih hcut]
      rfl

/-- A mark that begins nowhere in the first part is found as if that part were not there. -/
theorem cut?_append_of_apart (h : ∀ p, p <:+ s → p ≠ [] → ¬ mark <+: p ++ t) :
    cut? mark (s ++ t) = (cut? mark t).map fun (before, after) => (s ++ before, after) := by
  induction s with
  | nil => cases hcut : cut? mark t <;> exact hcut
  | cons c s ih =>
    have hnot : mark.isPrefixOf? (c :: s ++ t) = none := by
      cases hp : mark.isPrefixOf? (c :: s ++ t) with
      | none => rfl
      | some rest =>
        have hhead := h (c :: s) (List.suffix_refl _) (List.cons_ne_nil _ _)
        exact absurd ⟨rest, List.isPrefixOf?_eq_some_iff_append_eq.mp hp⟩ hhead
    rw [List.cons_append, cut?, ← List.cons_append, hnot,
      ih fun p hp => h p (hp.trans (List.suffix_cons _ _)), Option.map_map]
    rfl

theorem cut?_self (mark t : Text) (h : mark ≠ []) : cut? mark (mark ++ t) = some ([], t) := by
  obtain ⟨c, mark, rfl⟩ := List.exists_cons_of_ne_nil h
  rw [List.cons_append, cut?, ← List.cons_append, List.isPrefixOf?_eq_some_iff_append_eq.mpr rfl]

theorem trimEnd_append_space (s : Text) {t : Text} (h : ∀ c ∈ t, isSpace c) :
    trimEnd (s ++ t) = trimEnd s := by
  rw [trimEnd_append, if_pos (trimEnd_eq_nil h)]

theorem trimStart_append_space {s : Text} (h : ∀ c ∈ s, isSpace c) (t : Text) :
    trimStart (s ++ t) = trimStart t := List.dropWhile_append_of_pos h

/-- What trimming takes away at the end. -/
theorem trimStart_eq_trim (t : Text) :
    ∃ trailing, (∀ c ∈ trailing, isSpace c) ∧ trimStart t = trim t ++ trailing := by
  obtain ⟨trailing, htrailing, hend⟩ := trimStart_eq (trimStart t).reverse
  refine ⟨trailing.reverse, fun c hc => htrailing c (List.mem_reverse.mp hc), ?_⟩
  rw [← List.reverse_reverse (trimStart t), hend, List.reverse_append]
  rfl

theorem trim_append_space (s : Text) {t : Text} (h : ∀ c ∈ t, isSpace c) :
    trim (s ++ t) = trim s := by
  rw [trim, trimStart, List.dropWhile_append]
  split
  · rename_i hnil
    rw [List.dropWhile_eq_nil_iff.mpr h, trim, trimStart, List.isEmpty_iff.mp hnil]
  · exact trimEnd_append_space _ h

theorem isSpace_getLast {t : Text} {c : Char} (h : (trim t).getLast? = some c) :
    isSpace c = false := by
  have hhead := List.head?_dropWhile_not isSpace (trimStart t).reverse
  rw [trim, trimEnd, List.getLast?_reverse] at h
  rw [h] at hhead
  simpa using hhead

theorem isSpace_head {t : Text} {c : Char} (h : (trim t).head? = some c) : isSpace c = false := by
  obtain ⟨trailing, -, hsplit⟩ := trimStart_eq_trim t
  have hdrop : t.dropWhile isSpace = trim t ++ trailing := hsplit
  have hhead := List.head?_dropWhile_not isSpace t
  rw [hdrop, List.head?_append, h] at hhead
  exact hhead

theorem trimStart_trim_append (s t : Text) (h : trim s ≠ []) :
    trimStart (trim s ++ t) = trim s ++ t := by
  cases hsigns : trim s with
  | nil => exact absurd hsigns h
  | cons c u =>
    have hc : isSpace c = false := isSpace_head (by rw [hsigns]; rfl)
    rw [List.cons_append, trimStart, List.dropWhile_cons_of_neg (by rw [hc]; decide)]

theorem trim_trim (t : Text) : trim (trim t) = trim t := by
  by_cases hnil : trim t = []
  · rw [hnil]
    rfl
  · have hstart := trimStart_trim_append t [] hnil
    rw [List.append_nil] at hstart
    rw [trim, hstart, trim, trimEnd, trimEnd, List.reverse_reverse, List.dropWhile_idempotent]

/-- A comment after a text stays there with the white space in front of it. -/
theorem trim_append_comment {line note : Text} (hline : trim line ≠ []) (hnote : trim note ≠ []) :
    ∃ space, (∀ c ∈ space, isSpace c) ∧
      trim (line ++ (" // " ++ note)) = trim line ++ (space ++ (" // " ++ trimEnd note)) := by
  obtain ⟨leading, hleading, hstart⟩ := trimStart_eq line
  obtain ⟨trailing, htrailing, hend⟩ := trimStart_eq_trim line
  refine ⟨trailing, htrailing, ?_⟩
  have hkept : trimEnd note ≠ [] := by
    intro hnil
    obtain ⟨s, -, hs⟩ := trimEnd_eq note
    rw [hnil] at hs
    exact hnote (List.append_eq_nil_iff.mp hs.symm).2
  have hmark : trimEnd (" // " ++ note) = " // " ++ trimEnd note := by
    rw [trimEnd_append, if_neg hkept]
  have hwhole : trimEnd (" // " ++ note) ≠ [] := by
    rw [hmark]
    exact List.cons_ne_nil _ _
  calc trim (line ++ (" // " ++ note))
    _ = trimEnd (trimStart (leading ++ (trim line ++ trailing) ++ (" // " ++ note))) := by
      rw [← hend, ← hstart, trim]
    _ = trimEnd (trim line ++ trailing ++ (" // " ++ note)) := by
      rw [List.append_assoc, trimStart_append_space hleading, List.append_assoc,
        trimStart_trim_append _ _ hline]
    _ = trim line ++ (trailing ++ (" // " ++ trimEnd note)) := by
      rw [trimEnd_append, if_neg hwhole, hmark, List.append_assoc]

/-- A mark of two signs does not lie across a place where its second sign does not stand. -/
theorem infix_pair_append {a b d : Char} {u : Text} (hd : d ≠ b) (h : [a, b] <:+: s ++ d :: u) :
    [a, b] <:+: s ∨ [a, b] <:+: d :: u := by
  induction s with
  | nil => exact Or.inr h
  | cons c s ih =>
    rcases List.infix_cons_iff.mp h with hprefix | hinfix
    · obtain ⟨rfl, hsecond⟩ := List.cons_prefix_cons.mp hprefix
      cases s with
      | nil => exact absurd (List.cons_prefix_cons.mp hsecond).1.symm hd
      | cons e s =>
        obtain ⟨rfl, -⟩ := List.cons_prefix_cons.mp hsecond
        exact Or.inl ⟨[], s, rfl⟩
    · exact (ih hinfix).imp_left fun hs => hs.trans (List.suffix_cons c s).isInfix

theorem trimEnd_prefixes (t : Text) : trimEnd t <+: t := by
  rw [← List.reverse_suffix, trimEnd, List.reverse_reverse]
  exact List.dropWhile_suffix _

end Text

namespace Reading

open Text

variable {settings : Settings} {source : Text} {after : List Text}

/-! ### A comment after a command -/

/-- The comment mark does not begin in a text that ends neither in white space nor in a comment
sign, if white space follows. -/
theorem not_mark_prefix {rest p u : Text} {d : Char} (hmark : ¬ (" // " : Text) <:+: rest)
    (hlast : ∀ c, rest.getLast? = some c → isSpace c = false) (hslashes : ¬ (" //" : Text) <:+ rest)
    (hd : isSpace d) (hp : p <:+ rest) (hne : p ≠ []) : ¬ (" // " : Text) <+: p ++ d :: u := by
  rintro ⟨v, hv⟩
  have hsigns : ' ' :: '/' :: '/' :: ' ' :: v = p ++ d :: u := hv
  match p with
  | [] => exact hne rfl
  | [a] =>
    obtain rfl : ' ' = a := (List.cons.inj hsigns).1
    have hspace := hlast ' ' (by obtain ⟨q, rfl⟩ := hp; simp)
    cases hspace
  | [a, b] =>
    cases hsigns
    cases hd
  | [a, b, c] =>
    cases hsigns
    exact hslashes hp
  | a :: b :: c :: e :: q =>
    cases hsigns
    exact hmark (List.IsInfix.trans ⟨[], q, rfl⟩ hp.isInfix)

/-- White space and a comment do not move the place where a line of a command ends. -/
theorem withoutComment_append {rest space note : Text} 
    (hlast : ∀ c, rest.getLast? = some c → isSpace c = false)
    (hslashes : ¬ (" //" : Text) <:+ rest) (hspace : ∀ c ∈ space, isSpace c) :
    withoutComment (rest ++ (space ++ (" // " ++ note))) = withoutComment rest := by
  unfold withoutComment
  cases hcut : cut? " // " rest with
  | some found =>
    rw [cut?_append hcut]
    rfl
  | none =>
    have hmark := cut?_eq_none_iff.mp hcut
    have hrest : cut? " // " (rest ++ (space ++ (" // " ++ note))) =
        (cut? " // " (space ++ (" // " ++ note))).map fun (before, after) =>
          (rest ++ before, after) := by
      refine cut?_append_of_apart fun p hp hne => ?_
      cases space with
      | nil => exact not_mark_prefix hmark hlast hslashes rfl hp hne
      | cons d space =>
        exact not_mark_prefix hmark hlast hslashes (hspace d List.mem_cons_self) hp hne
    have hwhite : cut? " // " (space ++ (" // " ++ note)) = some (space, note) := by
      rw [cut?_append_of_apart, cut?_self _ _ (by decide)]
      · simp
      · rintro p hp hne ⟨v, hv⟩
        have hsigns : ' ' :: '/' :: '/' :: ' ' :: v = p ++ ' ' :: '/' :: '/' :: ' ' :: note := hv
        match p with
        | [] => exact hne rfl
        | [a] => cases hsigns
        | a :: b :: q =>
          obtain ⟨-, hrest⟩ := List.cons.inj hsigns
          obtain ⟨rfl, -⟩ := List.cons.inj hrest
          have hslash := hspace '/' (hp.subset (by simp))
          cases hslash
    rw [hrest, hwhite]
    exact trim_append_space rest hspace

theorem commandLine_withoutComment {rest rest' : Text} (h : withoutComment rest' = withoutComment rest)
    (number : Nat) (sign : Char) (following : List Text) (r : Reading) :
    commandLine settings source number sign rest' following r =
      commandLine settings source number sign rest following r := by
  rw [commandLine, h]
  rfl

/-- A comment without the end of a longer one adds no such end to a line. -/
theorem has_end_append {s space note : Text} (hspace : ∀ c ∈ space, isSpace c)
    (hnote : ¬ has "*/" note) :
    has "*/" (s ++ (space ++ (" // " ++ trimEnd note))) = has "*/" s := by
  have hadded : ¬ ("*/" : Text) <:+: space ++ (" // " ++ trimEnd note) := by
    intro h
    have hend : ("*/" : Text) <:+: " // " ++ trimEnd note :=
      infix_of_append_space (List.all_iff_forall_prop.mp (by decide)) hspace h
    have hin : ("*/" : Text) <:+: trimEnd note := infix_of_append (by simp) hend
    exact hnote (has_iff.mpr (hin.trans (trimEnd_prefixes note).isInfix))
  obtain ⟨d, u, hcons, hd⟩ : ∃ d u,
      space ++ ((" // " : Text) ++ trimEnd note) = d :: u ∧ d ≠ '/' := by
    cases space with
    | nil => exact ⟨' ', _, rfl, by decide⟩
    | cons d space =>
      refine ⟨d, _, rfl, fun hslash => ?_⟩
      have hd := hspace d List.mem_cons_self
      rw [hslash] at hd
      cases hd
  rw [Bool.eq_iff_iff, has_iff, has_iff, hcons]
  rw [hcons] at hadded
  exact ⟨fun h => (infix_pair_append hd h).resolve_right hadded,
    fun h => h.trans (List.prefix_append _ _).isInfix⟩

/-- Two lines with one command say the same if they do without their comments. -/
theorem step_withoutComment {r : Reading} (hobject : r.object = none) {sign first : Char}
    {rest rest' : Text}
    (hend : has "*/" (sign :: first :: rest') = has "*/" (sign :: first :: rest))
    (hcomment : withoutComment (first :: rest') = withoutComment (first :: rest)) (number : Nat)
    (following : List Text) :
    step settings source number (sign :: first :: rest') following r =
      step settings source number (sign :: first :: rest) following r := by
  rw [step, step, hobject, hend, if_neg (List.cons_ne_nil _ _), if_neg (List.cons_ne_nil _ _)]
  dsimp only [Command.split?]
  rw [commandLine_withoutComment hcomment]
  rfl

/-! ### A comment between lines -/

/-- A line that is passed over or is taken into what stands above it. -/
structure Continues (line : Text) : Prop where
  noEnd : ¬ has "*/" (trim line)
  sign : ∀ sign rest, Command.split? (trim line) = some (sign, rest) → sign = '^' ∨ sign = '%'

/-- The lines begin with something that may continue what stands above them. -/
def continued : List Text → Bool
  | [] => false
  | next :: following =>
    match Command.split? (trim next) with
    | none => continued following
    | some (sign, _) => sign = '^' || sign = '%'

theorem gather_of_not_continued {lines : List Text} (h : continued lines = false) (sign : Char)
    (joiner : Joiner) (line : Text) : gather sign joiner lines line = (line, none) := by
  induction lines with
  | nil => rfl
  | cons next following ih =>
    rw [continued] at h
    rw [gather]
    cases hsplit : Command.split? (trim next) with
    | none =>
      rw [hsplit] at h
      exact ih h
    | some found =>
      rw [hsplit, Bool.or_eq_false_iff, decide_eq_false_iff_not, decide_eq_false_iff_not] at h
      dsimp only
      rw [if_neg fun hjoin => h.1 hjoin.1, if_neg fun hprevious => h.2 hprevious.1]

theorem sameBelow_of_not_continued {lines lines' : List Text} (h : continued lines = false)
    (h' : continued lines' = false) : SameBelow lines lines' := by
  intro sign joiner line
  rw [gather_of_not_continued h, gather_of_not_continued h']

theorem step_continues (hlenient : settings.strict = false) {r : Reading} (hobject : r.object = none)
    {line : Text} (h : Continues line) (number : Nat) (following : List Text) :
    step settings source number (trim line) following r = .ok r := by
  obtain ⟨hend, hsign⟩ := h
  generalize trim line = t at hend hsign
  rw [step, hobject]
  dsimp only
  split
  · rfl
  split
  · rfl
  split
  · rename_i hcomment
    obtain ⟨t, rfl⟩ := List.isPrefixOf_iff_prefix.mp hcomment
    rcases hsign _ _ rfl with hslash | hslash <;> cases hslash
  split
  · rfl
  cases hsplit : Command.split? t with
  | none => rfl
  | some found =>
    obtain ⟨sign, rest⟩ := found
    dsimp only
    rw [commandLine, hlenient, if_neg (by decide)]
    rcases hsign sign rest hsplit with rfl | rfl <;> rfl

theorem steps_continues (hlenient : settings.strict = false) {r : Reading} (hobject : r.object = none)
    {cut : List Text} (hcut : ∀ line ∈ cut, Continues line) (number : Nat) (following : List Text) :
    steps settings source number (cut ++ following) r =
      steps settings source (number + cut.length) following r := by
  induction cut generalizing number with
  | nil => rfl
  | cons line cut ih =>
    rw [List.forall_mem_cons] at hcut
    rw [List.cons_append, steps, step_continues hlenient hobject hcut.1, List.length_cons,
      Nat.add_comm cut.length, ← Nat.add_assoc]
    exact ih hcut.2 (number + 1)

/-- Comments that go unseen. Lines that would have continued what is above a comment are cut off by
it; a comment at the end of a line is not searched for in lines that continue others, and is not
found if it has no text or if the line ends in a comment sign already. -/
inductive Commented : List Text → List Text → Prop where
  | between {note : Text} {cut after : List Text} (hnote : ("//" : Text) <+: trim note)
      (hcut : ∀ line ∈ cut, Continues line) (hafter : continued after = false) :
      Commented after (note :: cut ++ after)
  | ending {line note rest : Text} {sign : Char} {after : List Text}
      (hsplit : Command.split? (trim line) = some (sign, rest)) (hsign : sign ≠ '^' ∧ sign ≠ '%')
      (hslashes : ¬ (" //" : Text) <:+ trim line) (hnote : trim note ≠ []) (hend : ¬ has "*/" note) :
      Commented (line :: after) ((line ++ (" // " ++ note)) :: after)

theorem split?_append {line : Text} {sign : Char} {rest : Text}
    (h : Command.split? line = some (sign, rest)) (t : Text) :
    Command.split? (line ++ t) = some (sign, rest ++ t) := by
  match line, h with
  | c :: d :: u, h =>
    cases h
    rfl

theorem Commented.sameBelow {after' : List Text} (h : Commented after after') :
    SameBelow after' after := by
  cases h with
  | between hnote hcut hafter =>
    obtain ⟨t, ht⟩ := hnote
    refine sameBelow_of_not_continued ?_ hafter
    rw [List.cons_append, continued, ← ht]
    rfl
  | @ending line note rest sign after hsplit hsign hslashes hnote hend =>
    have hline : trim line ≠ [] := fun hnil => by
      rw [hnil] at hsplit
      cases hsplit
    have hcommand : continued (line :: after) = false := by
      rw [continued, hsplit]
      simp [hsign]
    refine sameBelow_of_not_continued ?_ hcommand
    obtain ⟨space, -, htrim⟩ := trim_append_comment hline hnote
    rw [continued, htrim, split?_append hsplit]
    simp [hsign]

theorem steps_note {r : Reading} (hobject : r.object = none) {note : Text}
    (hnote : ("//" : Text) <+: trim note) (number : Nat) (following : List Text) :
    steps settings source number (note :: following) r =
      steps settings source (number + 1) following r := by
  obtain ⟨t, ht⟩ := hnote
  rw [steps, ← ht, step, hobject]
  rfl

/-- Where no object is open, the lines below read the same with a comment. -/
theorem Commented.steps (hlenient : settings.strict = false) {after' : List Text}
    (h : Commented after after') {r : Reading} (hobject : r.object = none) (k l : Nat) :
    UpToNumber (steps settings source k after' r) (steps settings source l after r) := by
  cases h with
  | between hnote hcut hafter =>
    rw [List.cons_append, steps_note hobject hnote, steps_continues hlenient hobject hcut]
    exact steps_number _ _ _ _
  | @ending line note rest sign after hsplit hsign hslashes hnote hend =>
    have hcommand := Command.eq_of_split? hsplit
    obtain ⟨first, rest, rfl⟩ : ∃ first u, rest = first :: u := by
      rw [hcommand] at hsplit
      exact List.exists_cons_of_ne_nil fun hnil => by rw [hnil] at hsplit; cases hsplit
    obtain ⟨space, hspace, htrim⟩ := trim_append_comment (hcommand ▸ List.cons_ne_nil _ _) hnote
    have hlast : ∀ c, (first :: rest).getLast? = some c → isSpace c = false := by
      intro c hc
      exact isSpace_getLast (t := line) (by rw [hcommand, List.getLast?_cons_cons]; exact hc)
    have hsame : Reading.step settings source k (trim (line ++ (" // " ++ note))) after r =
        Reading.step settings source k (trim line) after r := by
      rw [htrim, hcommand]
      refine step_withoutComment hobject (has_end_append (s := sign :: first :: rest) hspace hend)
        ?_ k after
      refine withoutComment_append hlast (fun hsuffix => hslashes ?_) hspace
      rw [hcommand]
      exact hsuffix.trans (List.suffix_cons _ _)
    rw [Reading.steps, Reading.steps, hsame]
    exact (step_congr (fun _ _ _ => rfl) k l _ r).bind fun r' _ => steps_number _ _ _ r'

/-- No object is open between the lines. -/
def Outside (settings : Settings) (source : Text) (before after : List Text) : Prop :=
  ∀ r, above settings source after 1 before {} = .ok r → r.object = none

end Reading

open Text Reading

/-- A lenient reader does not see comments. -/
theorem ofText_commented {settings : Settings} (hlenient : settings.strict = false)
    {source code code' : Text} {before after after' : List Text}
    (hcode : pieces (· = '\n') code = before ++ after)
    (hcode' : pieces (· = '\n') code' = before ++ after') (hcomment : Commented after after')
    (hout : Outside settings source before after) :
    UpToNumber (Document.ofText settings source code') (Document.ofText settings source code) := by
  unfold Document.ofText
  rw [hcode, hcode']
  refine UpToNumber.map (steps_append_congr hcomment.sameBelow before fun k l r hr => ?_)
  exact hcomment.steps hlenient (hout r hr) k l

/-- One comment stands behind the label and one above the reply, and a third one cuts the reply
off. -/
theorem greeting_commented :
    UpToNumber (Document.ofText {} "" "> topic hi // Greets.\n+ hi\n- Hello\n^ there.")
      (Document.ofText {} "" "> topic hi\n+ hi\n- Hello\n^ there.") ∧
    UpToNumber (Document.ofText {} "" "> topic hi\n+ hi\n // Greets.\n- Hello\n^ there.")
      (Document.ofText {} "" "> topic hi\n+ hi\n- Hello\n^ there.") ∧
    UpToNumber (Document.ofText {} "" "> topic hi\n+ hi\n- Hello\n//Greets.\n^ there.")
      (Document.ofText {} "" "> topic hi\n+ hi\n- Hello") := by
  have hread : ∀ (before after after' : List Text) (code code' : Text), Commented after after' →
      pieces (· = '\n') code = before ++ after ∧ pieces (· = '\n') code' = before ++ after' ∧
        (above {} "" after 1 before {}).toOption.any (·.object.isNone) →
      UpToNumber (Document.ofText {} "" code') (Document.ofText {} "" code) := by
    rintro before after after' code code' hcomment ⟨hcode, hcode', hany⟩
    refine ofText_commented rfl hcode hcode' hcomment fun r hr => ?_
    rw [hr] at hany
    exact Option.isNone_iff_eq_none.mp hany
  have hbehind : Commented ["> topic hi", "+ hi", "- Hello", "^ there."]
      ["> topic hi // Greets.", "+ hi", "- Hello", "^ there."] :=
    .ending rfl ⟨by decide, by decide⟩ (by decide) (by decide) (by decide)
  have habove : Commented ["- Hello", "^ there."] [" // Greets.", "- Hello", "^ there."] :=
    @Commented.between " // Greets." [] _ (by decide) (List.forall_mem_nil _) rfl
  have hbelow : Commented [] ["//Greets.", "^ there."] := by
    refine @Commented.between "//Greets." ["^ there."] [] (by decide) (fun line hline => ?_) rfl
    obtain rfl := List.mem_singleton.mp hline
    exact ⟨by decide, by rintro sign rest ⟨⟩; exact Or.inl rfl⟩
  refine ⟨hread [] _ _ _ _ hbehind (by decide +kernel), ?_, ?_⟩
  · exact hread ["> topic hi", "+ hi"] _ _ _ _ habove (by decide +kernel)
  · exact hread ["> topic hi", "+ hi", "- Hello"] _ _ _ _ hbelow (by decide +kernel)

/-- Comments that are seen: one between a line and what continues it, one behind a continuation, one
behind what a rule looks back at, one without text, and one behind a comment sign. -/
theorem comments_seen :
    ¬ UpToNumber (Document.ofText {} "" "+ hi\n- Hello\n// Greets.\n^ there.")
      (Document.ofText {} "" "+ hi\n- Hello\n^ there.") ∧
    ¬ UpToNumber (Document.ofText {} "" "+ hi\n- Hello\n^ there. // Greets.")
      (Document.ofText {} "" "+ hi\n- Hello\n^ there.") ∧
    ¬ UpToNumber (Document.ofText {} "" "+ hi\n% bye // Parted.\n- Hello.")
      (Document.ofText {} "" "+ hi\n% bye\n- Hello.") ∧
    ¬ UpToNumber (Document.ofText {} "" "+ hi\n- Hello. // ")
      (Document.ofText {} "" "+ hi\n- Hello.") ∧
    ¬ UpToNumber (Document.ofText {} "" "+ hi\n- Hello // // Greets.")
      (Document.ofText {} "" "+ hi\n- Hello //") := by
  refine ⟨?_, ?_, ?_, ?_, ?_⟩
  all_goals exact fun h => absurd h.toOption (by decide +kernel)

end Dialogue
