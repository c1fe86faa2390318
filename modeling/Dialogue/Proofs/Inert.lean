import Dialogue.Proofs.Literal
import Dialogue.Proofs.Trigger
import Dialogue.Proofs.Trim
import Dialogue.Reply.Markup

/-! Texts in which there is no markup to carry out. -/
namespace Dialogue

namespace Text

variable {t opening closing : Text} {least : Nat}

theorem cut?_eq_none_iff {mark : Text} : cut? mark t = none ↔ ¬ mark <:+: t := by
  rw [← has_iff, has, Bool.not_eq_true, Option.isSome_eq_false_iff, Option.isNone_iff_eq_none]

/-- Somewhere in the text stands what `readBetween` reads. -/
def Spells (opening closing : Text) (least : Nat) (t : Text) : Prop :=
  ∃ body : Text, least ≤ body.length ∧ opening ++ body ++ closing <:+: t

/-- What closes is looked for behind the least that has to stand between. -/
theorem infix_drop_iff (hclosing : closing ≠ []) : closing <:+: t.drop least ↔
    ∃ body : Text, least ≤ body.length ∧ body ++ closing <+: t := by
  constructor
  · rintro ⟨before, after, heq⟩
    have hshort : least ≤ t.length := by
      by_contra hlong
      rw [List.drop_eq_nil_of_le (by omega)] at heq
      simp [hclosing] at heq
    refine ⟨t.take least ++ before, ?_, after, ?_⟩
    · rw [List.length_append, List.length_take, Nat.min_eq_left hshort]
      exact Nat.le_add_right _ _
    · calc t.take least ++ before ++ closing ++ after
          = t.take least ++ (before ++ closing ++ after) := by simp
        _ = t := by rw [heq, List.take_append_drop]
  · rintro ⟨body, hleast, after, rfl⟩
    rw [List.append_assoc, List.drop_append_of_le_length hleast, ← List.append_assoc]
    exact ⟨_, _, rfl⟩

theorem readBetween_eq_none_iff (hclosing : closing ≠ []) :
    readBetween opening closing least t = none ↔
      ∀ body : Text, least ≤ body.length → ¬ opening ++ body ++ closing <+: t := by
  rw [readBetween]
  cases hopening : opening.isPrefixOf? t with
  | none =>
    refine iff_of_true rfl ?_
    rintro body - ⟨after, hafter⟩
    rw [List.append_assoc, List.append_assoc, ← List.isPrefixOf?_eq_some_iff_append_eq] at hafter
    rw [hafter] at hopening
    cases hopening
  | some rest =>
    obtain rfl := List.isPrefixOf?_eq_some_iff_append_eq.mp hopening
    have hcut : cut? closing (rest.drop least) = none ↔
        ∀ body : Text, least ≤ body.length → ¬ body ++ closing <+: rest := by
      rw [cut?_eq_none_iff, infix_drop_iff hclosing]
      simp
    simp only [List.append_assoc, List.prefix_append_right_inj]
    rw [← hcut]
    cases hrest : cut? closing (rest.drop least) with
    | none => exact iff_of_true (by simp [hrest]) rfl
    | some found => exact iff_of_false (by simp [hrest]) (by simp)

theorem find?_readBetween_eq_none_iff (hopening : opening ≠ []) (hclosing : closing ≠ []) :
    find? (readBetween opening closing least) t = none ↔ ¬ Spells opening closing least t := by
  rw [find?_eq_none_iff, Spells]
  constructor
  · rintro hnone ⟨body, hleast, hwithin⟩
    obtain ⟨u, hstarts, hsuffix⟩ := List.infix_iff_prefix_suffix.mp hwithin
    have hne : u ≠ [] := by
      rintro rfl
      simp [hopening] at hstarts
    exact (readBetween_eq_none_iff hclosing).mp (hnone u hsuffix hne) body hleast hstarts
  · intro hnot u hsuffix _
    rw [readBetween_eq_none_iff hclosing]
    intro body hleast hstarts
    exact hnot ⟨body, hleast, hstarts.isInfix.trans hsuffix.isInfix⟩

theorem mem_of_mem_pieces {sep : Char → Bool} {piece : Text} {c : Char} (h : piece ∈ pieces sep t)
    (hc : c ∈ piece) : c ∈ t := by
  induction t generalizing piece with
  | nil =>
    rw [List.mem_singleton.mp h] at hc
    exact hc
  | cons d t ih =>
    rw [pieces] at h
    split at h
    · rcases List.mem_cons.mp h with rfl | hrest
      · cases hc
      · exact List.mem_cons_of_mem _ (ih hrest hc)
    · split at h
      · rw [List.mem_singleton.mp h, List.mem_singleton] at hc
        rw [hc]
        exact List.mem_cons_self
      · rename_i first rest hpieces
        rw [hpieces] at ih
        rcases List.mem_cons.mp h with rfl | hrest
        · rcases List.mem_cons.mp hc with rfl | hc
          · exact List.mem_cons_self
          · exact List.mem_cons_of_mem _ (ih List.mem_cons_self hc)
        · exact List.mem_cons_of_mem _ (ih (List.mem_cons_of_mem _ hrest) hc)

theorem mem_of_mem_intercalate {α : Type} {sep : List α} {parts : List (List α)} {c : α}
    (h : c ∈ sep.intercalate parts) : c ∈ sep ∨ ∃ part ∈ parts, c ∈ part := by
  induction parts with
  | nil => cases h
  | cons part parts ih =>
    cases parts with
    | nil =>
      rw [List.intercalate_singleton] at h
      exact .inr ⟨part, List.mem_cons_self, h⟩
    | cons next parts =>
      rw [List.intercalate_cons_cons, List.mem_append, List.mem_append] at h
      rcases h with (hpart | hsep) | hrest
      · exact .inr ⟨part, List.mem_cons_self, hpart⟩
      · exact .inl hsep
      · exact (ih hrest).imp_right fun ⟨later, hlater, hc⟩ =>
          ⟨later, List.mem_cons_of_mem _ hlater, hc⟩

theorem mem_of_mem_collapse {c : Char} (h : c ∈ collapse t) : c = ' ' ∨ c ∈ t := by
  rcases mem_of_mem_intercalate h with hblank | ⟨word, hword, hc⟩
  · exact .inl (List.mem_singleton.mp hblank)
  · exact .inr (mem_of_mem_pieces (List.mem_of_mem_filter hword) hc)

end Text

/-! ### What a message keeps -/

namespace Canon

/-- Characters that a message in its final form can have. -/
def Admits (canon : Canon) (c : Char) : Prop :=
  if canon.utf8 then isMarkupSign c = false else isPlain c = true

theorem admits_of_mem_clean {canon : Canon} {ownReply : Bool} {t : Text} {c : Char}
    (h : c ∈ canon.clean ownReply t) : canon.Admits c := by
  rw [clean] at h
  rw [Admits]
  split at h
  · rename_i hutf8
    have hkept : c ∈ canon.punctuation.strip (t.filter (!isMarkupSign ·)) := by
      cases ownReply with
      | false => exact h
      | true => exact List.mem_of_mem_filter h
    have hfilter := (canon.punctuation.sublist _).mem hkept
    rw [if_pos hutf8]
    simpa using (List.mem_filter.mp hfilter).2
  · rename_i hascii
    rw [if_neg hascii]
    exact (List.mem_filter.mp h).2

theorem admits_of_mem_format {canon : Canon} {ownReply : Bool} {t : Text} {c : Char}
    (h : c ∈ canon.format ownReply t) : canon.Admits c := by
  rcases Text.mem_of_mem_collapse h with rfl | hclean
  · rw [Admits]
    split <;> rfl
  · exact admits_of_mem_clean hclean

end Canon

namespace Markup

open Text

/-- The marks around something that is carried out, and how much has to stand between them. -/
structure Directive where
  opening : Text
  closing : Text
  least : Nat
  deriving DecidableEq, Repr

namespace Directive

def random : Directive := ⟨curly "random", curly "/random", 0⟩

def hotLoad : Directive := ⟨"\x7b!", "\x7d", 1⟩

def block (b : Block) : Directive := ⟨curly b.name, curly ('/' :: b.name), 1⟩

def topic : Directive := ⟨"\x7btopic=", "\x7d", 1⟩

def redirect : Directive := ⟨"\x7b@", "\x7d", 0⟩

/-- All that is carried out in curly brackets. -/
def all : List Directive := [random, hotLoad, topic, redirect] ++ Block.all.map block

def read (d : Directive) : Reader Text := readBetween d.opening d.closing d.least

def Spelled (d : Directive) (t : Text) : Prop := Spells d.opening d.closing d.least t

theorem ends : ∀ d ∈ all, d.opening.head? = some '\x7b' ∧ d.closing.getLast? = some '\x7d' := by
  decide

theorem find?_read {d : Directive} (hd : d ∈ all) {t : Text} :
    find? d.read t = none ↔ ¬ d.Spelled t := by
  obtain ⟨hopening, hclosing⟩ := ends d hd
  apply find?_readBetween_eq_none_iff
  · intro hnil
    rw [hnil] at hopening
    cases hopening
  · intro hnil
    rw [hnil] at hclosing
    cases hclosing

end Directive

/-- What calls are hidden behind. -/
def callMarks : List Text := [curly "__call__", curly "/__call__"]

/-- Nothing in the text is carried out, though it may have curly brackets. -/
structure Inert (t : Text) : Prop where
  directives : ∀ d ∈ Directive.all, ¬ d.Spelled t
  calls : ∀ mark ∈ callMarks, ¬ mark <:+: t
  /-- These stand for angle brackets while tags are carried out. -/
  parks : '\x00' ∉ t ∧ '\x01' ∉ t

theorem inert_iff {t : Text} : Inert t ↔ (∀ d ∈ Directive.all, ¬ d.Spelled t) ∧
    (∀ mark ∈ callMarks, ¬ mark <:+: t) ∧ '\x00' ∉ t ∧ '\x01' ∉ t :=
  ⟨fun h => ⟨h.directives, h.calls, h.parks⟩, fun h => ⟨h.1, h.2.1, h.2.2⟩⟩

instance (t : Text) : Decidable (∀ d ∈ Directive.all, ¬ d.Spelled t) :=
  decidable_of_iff (∀ d ∈ Directive.all, find? d.read t = none)
    (forall₂_congr fun _ hd => Directive.find?_read hd)

instance (t : Text) : Decidable (Inert t) := decidable_of_iff _ inert_iff.symm

/-- Signs that mean something in a reply. -/
def signs : Text := "<>\x7b\x7d\\()@\x00\x01"

/-- A text that says nothing but itself in a reply. -/
def Unmarked (t : Text) : Prop := ∀ c ∈ signs, c ∉ t

-- Asked of the signs only, so that no instance for all characters is tried.
instance (t : Text) : Decidable (Unmarked t) := List.decidableBAll (· ∉ t) signs

variable {mark t pre post : Text}

/-- What stands between texts without signs brings its own signs along. -/
theorem not_mem_between {c : Char} (hc : c ∈ signs) (hpre : Unmarked pre) (hpost : Unmarked post)
    (ht : c ∉ t) : c ∉ pre ++ t ++ post := by
  simp [hpre c hc, hpost c hc, ht]

/-- The mark begins and ends with a curly bracket. -/
def Bracketed (mark : Text) : Prop :=
  mark.head? = some '\x7b' ∧ mark.getLast? = some '\x7d'

theorem bracketed_callMarks : ∀ mark ∈ callMarks, Bracketed mark := by
  unfold Bracketed
  decide

theorem Directive.bracketed {d : Directive} (hd : d ∈ Directive.all) (body : Text) :
    Bracketed (d.opening ++ body ++ d.closing) := by
  obtain ⟨hopening, hclosing⟩ := Directive.ends d hd
  constructor
  · rw [List.append_assoc, List.head?_append, hopening]
    rfl
  · rw [List.getLast?_append, hclosing]
    rfl

/-- Curly brackets that do not stand around a text stand inside it. -/
theorem Bracketed.infix_between (h : Bracketed mark) (hpre : Unmarked pre) (hpost : Unmarked post)
    (hwithin : mark <:+: pre ++ t ++ post) : mark <:+: t := by
  apply infix_of_append (s := pre)
  · intro c hc
    obtain rfl : '\x7b' = c := Option.some.inj (h.1.symm.trans hc)
    exact hpre _ (by decide)
  · apply infix_of_append_right (t := post) _ hwithin
    intro c hc
    obtain rfl : '\x7d' = c := Option.some.inj (h.2.symm.trans hc)
    exact hpost _ (by decide)

/-- No directive begins or ends outside a text, if there are no signs around it. -/
theorem Inert.between (h : Inert t) (hpre : Unmarked pre) (hpost : Unmarked post) :
    Inert (pre ++ t ++ post) where
  directives := by
    rintro d hd ⟨body, hleast, hwithin⟩
    exact h.directives d hd
      ⟨body, hleast, (Directive.bracketed hd body).infix_between hpre hpost hwithin⟩
  calls := by
    intro mark hmark hwithin
    exact h.calls mark hmark ((bracketed_callMarks mark hmark).infix_between hpre hpost hwithin)
  parks := by
    obtain ⟨hopen, hclose⟩ := h.parks
    constructor
    · exact not_mem_between (by decide) hpre hpost hopen
    · exact not_mem_between (by decide) hpre hpost hclose

/-- Without curly brackets there is nothing to carry out. -/
theorem inert_of_not_mem (hcurly : '\x7b' ∉ t) (hparks : '\x00' ∉ t ∧ '\x01' ∉ t) : Inert t := by
  have hnot : ∀ mark, Bracketed mark → ¬ mark <:+: t := by
    intro mark hmark hwithin
    exact hcurly (hwithin.subset (List.mem_of_head? hmark.1))
  constructor
  · rintro d hd ⟨body, -, hwithin⟩
    exact hnot _ (Directive.bracketed hd body) hwithin
  · intro mark hmark
    exact hnot mark (bracketed_callMarks mark hmark)
  · exact hparks

theorem inert_of_isPlain (h : ∀ c ∈ t, isPlain c = true) : Inert t := by
  have habsent : ∀ c, isPlain c = false → c ∉ t := by
    intro c hc hmem
    rw [h c hmem] at hc
    cases hc
  apply inert_of_not_mem
  · exact habsent _ (by decide)
  · exact ⟨habsent _ (by decide), habsent _ (by decide)⟩

end Markup

end Dialogue
