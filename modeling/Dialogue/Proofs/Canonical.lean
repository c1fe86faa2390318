import Dialogue.Proofs.Drafts
import Dialogue.Proofs.Words

/-! Messages in their final form: words of ASCII with single blanks between them. Capital letters come
from what is put in for a phrase, since that is not lowered any more. -/
namespace Dialogue

open Text

namespace Substitution

section Keeping

variable {s : Substitution} {table : Table Text} {takes : Text → Bool} {message phrase u t : Text}
  {parts front back : List Part} {index : Nat} {c : Char}

/-- A slot is not begun by a phrase that ends where no word goes on. -/
theorem kept_of_phrase (h : write parts = phrase ++ u) (hletter : 'P' ∉ phrase) (hu : BeginsApart u) :
    ∃ back, parts = phrase.map .kept ++ back ∧ write back = u := by
  induction phrase generalizing parts with
  | nil => exact ⟨parts, rfl, h⟩
  | cons d phrase ih =>
    have hphrase : 'P' ∉ phrase := fun hmem => hletter (List.mem_cons_of_mem _ hmem)
    cases parts with
    | nil => cases h
    | cons part parts =>
      cases part with
      | kept e =>
        obtain ⟨rfl, hrest⟩ := List.cons.inj h
        obtain ⟨back, rfl, hback⟩ := ih hrest hphrase
        exact ⟨back, rfl, hback⟩
      | replaced index phrase' value =>
        have hslot : slot index ++ write parts = d :: (phrase ++ u) := h
        rw [slot_eq] at hslot
        have hhead := congrArg List.head? (List.cons.inj hslot).2
        exact absurd hhead.symm (head?_ne_of_phrase hphrase hu)

/-- Replacing phrases adds nothing to the characters that are kept. -/
theorem kept_of_placed (hletter : 'P' ∉ phrase) {written left result : Text}
    (hplaced : Placed phrase (slot index) written left result) (hfront : write front = written)
    (hback : write back = left) (h : ∀ c, .kept c ∈ front ++ back → c ∈ message) :
    ∃ parts, write parts = result ∧ ∀ c, .kept c ∈ parts → c ∈ message := by
  induction hplaced generalizing front back with
  | stop written left => exact ⟨front ++ back, by rw [write_append, hfront, hback], h⟩
  | @swap written lead left result hlead hleft _ ih =>
    obtain ⟨middle, rest, rfl, hmiddle, hrest⟩ :=
      cut_write hback (endsApart_append.mp hlead).1 (head?_ne_of_phrase hletter hleft)
    obtain ⟨back, rfl, rfl⟩ := kept_of_phrase hrest hletter hleft
    have hslot : write [.replaced index phrase []] = slot index := List.append_nil _
    have hwrite : write (front ++ middle ++ [.replaced index phrase []]) =
        written ++ lead ++ slot index := by
      rw [write_append, write_append, hfront, hmiddle, hslot]
    refine ih hwrite rfl ?_
    intro c hc
    apply h c
    simp only [List.mem_append, List.mem_singleton, reduceCtorEq, or_false] at hc ⊢
    rcases hc with (hfront | hmiddle) | hback
    · exact .inl hfront
    · exact .inr (.inl hmiddle)
    · exact .inr (.inr (.inr hback))

theorem kept_of_placeAll {entries : List (Text × Text)} (hletter : ∀ e ∈ entries, 'P' ∉ e.1)
    (h : ∀ c, .kept c ∈ parts → c ∈ message) :
    ∃ parts', write parts' = placeAll index entries (write parts) ∧
      ∀ c, .kept c ∈ parts' → c ∈ message := by
  induction entries generalizing index parts with
  | nil => exact ⟨parts, rfl, h⟩
  | cons e entries ih =>
    obtain ⟨hphrase, hentries⟩ := List.forall_mem_cons.mp hletter
    have hstart : write [] = [] := rfl
    obtain ⟨parts', hparts', hkept⟩ := kept_of_placed hphrase
      (placed_place e.1 (slot index) (write parts)) hstart rfl h
    obtain ⟨parts'', hparts'', hkept'⟩ := ih hentries hkept
    exact ⟨parts'', by rw [hparts'', hparts', placeAll], hkept'⟩

theorem mem_of_mem_filling {digits : Text} (h : c ∈ s.filling digits) : ∃ e ∈ s.entries, c ∈ e.2 := by
  rw [filling] at h
  cases hvalue : ((Numeral.count? digits).bind (s.entries[·]?)).map Prod.snd with
  | none =>
    rw [hvalue] at h
    cases h
  | some value =>
    rw [hvalue] at h
    obtain ⟨e, hentry, rfl⟩ := Option.map_eq_some_iff.mp hvalue
    obtain ⟨index, -, hindex⟩ := Option.bind_eq_some_iff.mp hentry
    exact ⟨e, List.mem_of_getElem? hindex, h⟩

/-- Every character of the result stands in the message or in what is put in for a phrase. -/
theorem mem_of_mem_apply (hmessage : 'P' ∉ message)
    (h : c ∈ ((ofTable table).keep takes).apply message) :
    c ∈ message ∨ ∃ e ∈ table.entries, c ∈ e.2 := by
  rw [apply] at h
  split at h
  · exact .inl h
  · have hphrases : ∀ e ∈ ((ofTable table).keep takes).entries, 'P' ∉ e.1 := by
      intro e he hmem
      obtain ⟨key, -, hphrase⟩ := mem_entries_keep he
      rw [hphrase] at hmem
      exact absurd (isLow_of_mem_lower hmem) (by decide)
    have hkept : ∀ c, .kept c ∈ message.map Part.kept → c ∈ message := by simp
    obtain ⟨parts, hparts, hkept⟩ := kept_of_placeAll hphrases hkept
    rw [write_kept] at hparts
    rw [← hparts, fill_parts fun hmem => hmessage (hkept 'P' hmem)] at h
    obtain ⟨part, hpart, hc⟩ := List.mem_flatMap.mp h
    cases part with
    | kept d =>
      rw [List.mem_singleton.mp hc]
      exact .inl (hkept d hpart)
    | replaced index phrase value =>
      obtain ⟨e, he, hvalue⟩ := mem_of_mem_filling hc
      obtain ⟨key, hkey, -⟩ := mem_entries_keep he
      exact .inr ⟨(key, e.2), hkey, hvalue⟩

end Keeping

end Substitution

/-! ### Literal triggers -/

/-- Small letters, digits and the underscore of ASCII. -/
def isSmall (c : Char) : Bool := c.isLower || c.isDigit || c == '_'

/-- The trigger that says a message literally. An underscore alone would be a wildcard. -/
def spelled (t : Text) : Text := t.flatMap fun c => if c = '_' then ['\\', c] else [c]

def spelledItem (c : Char) : Item := if c = ' ' then .blank else .literal c

namespace Command

variable {t : Text} {opening closing : Char}

theorem firstFault_eq_none {faults : List (Bool × SyntaxFault)} (h : ∀ f ∈ faults, f.1 = false) :
    firstFault faults = none := by
  induction faults with
  | nil => rfl
  | cons f faults ih =>
    obtain ⟨hf, hfaults⟩ := List.forall_mem_cons.mp h
    rw [firstFault, hf, if_neg Bool.false_ne_true, ih hfaults]

theorem blankBetween_of_not_mem (h : opening ∉ t) : blankBetween opening closing t = false := by
  induction t with
  | nil => rfl
  | cons c t ih =>
    rw [List.mem_cons, not_or] at h
    rw [blankBetween, ih h.2, decide_eq_false (Ne.symm h.1)]
    rfl

theorem has_of_not_mem {mark : Text} {c : Char} (hc : c ∈ mark) (h : c ∉ t) : has mark t = false := by
  rw [← Bool.not_eq_true, has_iff]
  exact fun hwithin => h (hwithin.subset hc)

theorem isBalanced_of_not_mem (hopening : opening ∉ t) (hclosing : closing ∉ t) :
    isBalanced opening closing t = true := by
  rw [isBalanced, List.count_eq_zero.mpr hopening, List.count_eq_zero.mpr hclosing, beq_self_eq_true]

end Command

section Spelling

variable {t : Text} {c : Char}

/-- What a message of small words is spelled with. -/
def isSpelling (c : Char) : Bool := isSmall c || c == ' ' || c == '\\'

theorem isTriggerCharacter_of_isSpelling (h : isSpelling c = true) :
    Command.isTriggerCharacter c = true := by
  simp only [isSpelling, isSmall, Bool.or_eq_true, beq_iff_eq] at h
  rcases h with (((hlower | hdigit) | rfl) | rfl) | rfl
  · simp [Command.isTriggerCharacter, hlower]
  · simp [Command.isTriggerCharacter, hdigit]
  · decide
  · decide
  · decide

theorem isSpelling_of_mem_spelled (ht : ∀ c ∈ t, isSmall c = true ∨ c = ' ') (h : c ∈ spelled t) :
    isSpelling c = true := by
  obtain ⟨d, hd, hc⟩ := List.mem_flatMap.mp h
  have hspelling : isSpelling d = true := by
    rcases ht d hd with hsmall | rfl
    · simp [isSpelling, hsmall]
    · decide
  split at hc
  · rcases List.mem_cons.mp hc with rfl | hc
    · decide
    · rwa [List.mem_singleton.mp hc]
  · rwa [List.mem_singleton.mp hc]

/-- Strict checks let the trigger through. -/
theorem check_spelled (ht : ∀ c ∈ t, isSmall c = true ∨ c = ' ') {settings : Settings}
    (hascii : settings.utf8 = false) : Command.check settings '+' (spelled t) = none := by
  have hspelling : ∀ c ∈ spelled t, isSpelling c = true := fun c => isSpelling_of_mem_spelled ht
  have habsent : ∀ c, isSpelling c = false → c ∉ spelled t := by
    intro c hc hmem
    rw [hspelling c hmem] at hc
    cases hc
  have hround : '(' ∉ spelled t := habsent _ (by decide)
  have hsquare : '[' ∉ spelled t := habsent _ (by decide)
  have hbar : '|' ∉ spelled t := habsent _ (by decide)
  have hcharacters : (spelled t).any (!Command.isTriggerCharacter ·) = false := by
    rw [List.any_eq_false]
    intro c hc
    simpa using isTriggerCharacter_of_isSpelling (hspelling c hc)
  have hbalanced : ∀ opening closing, isSpelling opening = false → isSpelling closing = false →
      Command.isBalanced opening closing (spelled t) = true := fun opening closing ho hc =>
    Command.isBalanced_of_not_mem (habsent _ ho) (habsent _ hc)
  rw [Command.check]
  apply Command.firstFault_eq_none
  rw [Command.triggerFaults, hascii, if_neg Bool.false_ne_true, List.forall_mem_append]
  constructor
  · simp only [List.forall_mem_cons, Bool.or_eq_false_iff]
    refine ⟨hcharacters, ⟨?_, ?_⟩, ?_, ⟨?_, ?_⟩, ?_, List.forall_mem_nil _⟩
    · exact Command.has_of_not_mem (by decide) hbar
    · exact Command.has_of_not_mem (by decide) hbar
    · exact Command.blankBetween_of_not_mem hround
    · exact Command.has_of_not_mem (by decide) hbar
    · exact Command.has_of_not_mem (by decide) hbar
    · exact Command.blankBetween_of_not_mem hsquare
  · simp only [List.forall_mem_cons, Bool.not_eq_false']
    refine ⟨?_, ?_, ?_, ?_, List.forall_mem_nil _⟩
    · exact hbalanced '(' ')' (by decide) (by decide)
    · exact hbalanced '[' ']' (by decide) (by decide)
    · exact hbalanced '\x7b' '\x7d' (by decide) (by decide)
    · exact hbalanced '<' '>' (by decide) (by decide)

theorem ascii_of_isSmall (h : isSmall c = true) : c.toNat < 0x80 := by
  rw [isSmall, Bool.or_eq_true, Bool.or_eq_true, beq_iff_eq] at h
  rcases h with (hlower | hdigit) | rfl
  · have hlast : c.val ≤ 'z'.val := of_decide_eq_true (Bool.and_eq_true_iff.mp hlower).2
    exact lt_of_le_of_lt (UInt32.le_iff_toNat_le.mp hlast) (by decide)
  · exact ascii_of_isDigit hdigit
  · decide

theorem plain_of_isSmall (hsmall : isSmall c = true) (hne : c ≠ '_') :
    c ∉ Pattern.signs ∧ isSpace c = false := by
  have hall : ∀ c : Char, c.toNat < 0x80 → isSmall c = true → c ≠ '_' →
      c ∉ Pattern.signs ∧ isSpace c = false := forall_ascii (by decide +kernel)
  exact hall c (ascii_of_isSmall hsmall) hsmall hne

def spelledToken (c : Char) : Token := if c = ' ' then .blank else .literal c

theorem tokensFrom_spelled (ht : ∀ c ∈ t, isSmall c = true ∨ c = ' ') :
    Pattern.tokensFrom 0 (spelled t) = t.map spelledToken := by
  induction t with
  | nil => rfl
  | cons c t ih =>
    obtain ⟨hc, ht⟩ := List.forall_mem_cons.mp ht
    rw [List.map_cons, ← ih ht]
    by_cases hunderscore : c = '_'
    · subst hunderscore
      rfl
    have hspelled : spelled (c :: t) = c :: spelled t := by
      rw [spelled, List.flatMap_cons, if_neg hunderscore]
      rfl
    rw [hspelled, spelledToken]
    rcases hc with hsmall | rfl
    · obtain ⟨hsigns, hspace⟩ := plain_of_isSmall hsmall hunderscore
      have hblank : c ≠ ' ' := by
        rintro rfl
        cases hspace
      rw [Pattern.tokensFrom_cons hsigns, hspace, if_neg hblank]
      rfl
    · rfl

theorem items_spelled (ht : ∀ c ∈ t, isSmall c = true ∨ c = ' ') :
    Pattern.items (spelled t) = .ok (t.map spelledItem) := by
  have hitem : ∀ c ∈ t, Pattern.item? (spelledToken c) = some (spelledItem c) := by
    intro c _
    rw [spelledToken, spelledItem]
    split <;> rfl
  rw [Pattern.items, tokensFrom_spelled ht]
  exact Pattern.assemble_map hitem [] fun as h => nomatch h

end Spelling

/-! ### The final form -/

/-- Capital letters that stand in what is put in for a phrase. -/
def IsCapital (table : Table Text) (c : Char) : Prop := c.isUpper = true ∧ ∃ e ∈ table.entries, c ∈ e.2

structure Canonical (table : Table Text) (t : Text) : Prop where
  words : ∃ ws, t = [' '].intercalate ws ∧
    ∀ w ∈ ws, w ≠ [] ∧ ∀ c ∈ w, isSmall c = true ∨ IsCapital table c
  /-- Without capital letters there is an accepted trigger that says the message. -/
  literal : (∀ c ∈ t, c.isUpper = false) → ∀ settings : Settings, settings.utf8 = false →
    Command.check settings '+' (spelled t) = none ∧ Pattern.items (spelled t) = .ok (t.map spelledItem)

section Formatting

variable {table : Table Text} {takes : Text → Bool} {c : Char}

theorem isUpper_of_isLow (h : IsLow c) : c.isUpper = false := by
  have hall : ∀ c : Char, c.toNat < 0x80 → IsLow c → c.isUpper = false :=
    forall_ascii (by decide +kernel)
  rw [← Bool.not_eq_true]
  intro hupper
  have hascii : c.toNat < 0x80 := by
    have hrange : 'A'.val ≤ c.val ∧ c.val ≤ 'Z'.val := of_decide_eq_true hupper
    exact lt_of_le_of_lt (UInt32.le_iff_toNat_le.mp hrange.2) (by decide)
  rw [hall c hascii h] at hupper
  cases hupper

theorem isSmall_of_isPlain (hplain : isPlain c = true) (hblank : c ≠ ' ') (hupper : c.isUpper = false) :
    isSmall c = true := by
  have halpha : c.isAlpha = (c.isUpper || c.isLower) := rfl
  simp only [isPlain, Char.isAlphanum, halpha, Bool.or_eq_true, beq_iff_eq, hupper, hblank, or_false,
    Bool.false_eq_true, false_or] at hplain
  simpa [isSmall] using hplain

theorem of_mem_words {message w : Text} (hw : w ∈ words ((((Substitution.ofTable table).keep takes).apply
    (lower message)).filter isPlain)) : w ≠ [] ∧ ∀ c ∈ w, isSmall c = true ∨ IsCapital table c := by
  have hletter : 'P' ∉ lower message := fun hmem => absurd (isLow_of_mem_lower hmem) (by decide)
  have hname := isName_of_mem_words hw
  refine ⟨hname.ne, fun c hc => ?_⟩
  obtain ⟨happly, hplain⟩ := List.mem_filter.mp (mem_of_mem_pieces (List.mem_of_mem_filter hw) hc)
  have hblank : c ≠ ' ' := by
    rintro rfl
    have hspace := hname.solid ' ' hc
    cases hspace
  cases hupper : c.isUpper with
  | false => exact .inl (isSmall_of_isPlain hplain hblank hupper)
  | true =>
    rcases Substitution.mem_of_mem_apply hletter happly with hmessage | hvalue
    · rw [isUpper_of_isLow (isLow_of_mem_lower hmessage)] at hupper
      cases hupper
    · exact .inr ⟨hupper, hvalue⟩

/-- The order of the steps: capital letters of the message are lowered first, those of values are not. -/
theorem format_canonical (table : Table Text) (takes : Text → Bool) (punctuation : Stripper)
    (ownReply : Bool) (message : Text) :
    Canonical table
      (Canon.format { punctuation, substitution := (Substitution.ofTable table).keep takes } ownReply
        message) := by
  generalize hresult : Canon.format _ ownReply message = result
  have hformat : result =
      collapse ((((Substitution.ofTable table).keep takes).apply (lower message)).filter isPlain) :=
    hresult.symm
  refine ⟨⟨_, hformat, fun w hw => of_mem_words hw⟩, fun hsmall settings hascii => ?_⟩
  have hchars : ∀ c ∈ result, isSmall c = true ∨ c = ' ' := by
    intro c hc
    have hupper := hsmall c hc
    rw [hformat] at hc
    rcases mem_of_mem_intercalate hc with hblank | ⟨w, hw, hc⟩
    · exact .inr (List.mem_singleton.mp hblank)
    · rcases (of_mem_words hw).2 c hc with hc | hcapital
      · exact .inl hc
      · rw [hcapital.1] at hupper
        cases hupper
  exact ⟨check_spelled hchars hascii, items_spelled hchars⟩

/-- What is put in for a phrase keeps its capital letters. -/
theorem value_keeps_capital :
    Canon.format { substitution := Substitution.ofTable ⟨[("hi", "Hello")]⟩ } false "hi" = "Hello" ∧
    isSmall 'H' = false ∧ Command.isTriggerCharacter 'H' = false := by
  refine ⟨?_, by decide, by decide⟩
  rw [Substitution.ofTable, List.mergeSort_singleton]
  decide +kernel

end Formatting

end Dialogue
