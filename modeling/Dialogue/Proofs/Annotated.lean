import Dialogue.Proofs.Interpolated

/-! Weights that are written behind a text. They count as written, and so the larger one for more, as
long as they fit in 32 bits; a larger one counts as if it were not there. -/
namespace Dialogue

/-- Digits of ASCII stand for the number that they are read as, whatever its size. -/
theorem Numeral.isDigit_of_digits? {t : Text} {n : Nat} (h : digits? t = some n) :
    t ≠ [] ∧ ∀ c ∈ t, c.isDigit := by
  rw [digits?] at h
  split at h
  · cases h
  · rename_i hne
    refine ⟨hne, ?_⟩
    clear hne
    generalize 0 = value at h
    induction t generalizing value with
    | nil => exact List.forall_mem_nil _
    | cons c t ih =>
      rw [digitsFrom] at h
      split at h
      · rename_i hc
        exact List.forall_mem_cons.mpr ⟨hc, ih _ h⟩
      · cases h

theorem Numeral.weight?_of_digits? {t : Text} {n : Nat} (h : digits? t = some n) :
    weight? t = if n < Nat.pow 2 32 then some n else none := by
  have hplus : ∀ rest, t ≠ '+' :: rest := by
    rintro rest rfl
    exact absurd ((isDigit_of_digits? h).2 '+' List.mem_cons_self) (by decide)
  rw [weight?, below?.eq_2 _ _ hplus, h, Option.filter_some]
  simp only [decide_eq_true_eq]

namespace Text

variable {s t mark rest : Text}

/-- A mark that begins before another one ends before it too, unless a bracket opens inside it. -/
theorem split_of_marks (ht : t ≠ []) (hs : s.head? = some '\x7b') (hmark : '\x7b' ∉ mark.tail)
    (h : t ++ s = mark ++ rest) : ∃ u, t = mark ++ u ∧ rest = u ++ s := by
  rcases List.append_eq_append_iff.mp h with ⟨u, rfl, rfl⟩ | ⟨u, rfl, rfl⟩
  · cases u with
    | nil => exact ⟨[], by simp, by simp⟩
    | cons d u =>
      obtain rfl : d = '\x7b' := Option.some.inj hs
      obtain ⟨c, t, rfl⟩ := List.exists_cons_of_ne_nil ht
      exact absurd (List.mem_append_right t List.mem_cons_self) hmark
  · exact ⟨u, rfl, rfl⟩

end Text

namespace Weight

open Text

/-- An annotation with a number that is written out. -/
def mark (digits : Text) : Text := "\x7bweight=" ++ (digits ++ ['\x7d'])

variable {t digits : Text} {n : Nat}

theorem head?_mark (digits : Text) : (mark digits).head? = some '\x7b' := rfl

theorem mark_ne_nil (digits : Text) : mark digits ≠ [] := by
  intro hnil
  cases hnil ▸ head?_mark digits

theorem not_mem_tail {name : Text} (hname : '\x7b' ∉ name) (h : ∀ c ∈ digits, Text.isDigit c) :
    '\x7b' ∉ name ++ (digits ++ ['\x7d']) := by
  have hdigits : '\x7b' ∉ digits := fun hmem => absurd (h _ hmem) (by decide)
  simp [hname, hdigits]

theorem read_written (hne : digits ≠ []) (h : ∀ c ∈ digits, Text.isDigit c) :
    read (mark digits) = some (digits, []) := by
  have hread := read_mark h []
  rwa [if_neg hne] at hread

theorem read_append_mark (ht : t ≠ []) (hnone : read t = none) (digits : Text) :
    read (t ++ mark digits) = none := by
  cases hread : read (t ++ mark digits) with
  | none => rfl
  | some found =>
    obtain ⟨digits', rest⟩ := found
    obtain ⟨hmark, hdigits⟩ := @of_readNumber "\x7bweight=" _ digits' rest hread
    have hsplit : t ++ mark digits = "\x7bweight=" ++ (digits' ++ ['\x7d']) ++ rest := by
      rw [hmark]
      simp
    obtain ⟨u, rfl, -⟩ := split_of_marks ht (head?_mark digits)
      (not_mem_tail (by decide) hdigits) hsplit
    have hne : digits' ≠ [] := by
      rintro rfl
      rw [hmark, read_mark (List.forall_mem_nil _), if_pos rfl] at hread
      cases hread
    rw [List.append_assoc, List.append_assoc, List.singleton_append, read_mark hdigits,
      if_neg hne] at hnone
    cases hnone

/-- Behind a text without annotations, an annotation is the first one. -/
theorem first?_append_mark (ht : first? t = none) (hne : digits ≠ [])
    (h : ∀ c ∈ digits, Text.isDigit c) : first? (t ++ mark digits) = some digits := by
  induction t with
  | nil =>
    have hread := read_written hne h
    obtain ⟨c, u, hmark⟩ := List.exists_cons_of_ne_nil (mark_ne_nil digits)
    rw [hmark] at hread
    rw [List.nil_append, hmark, first?, find?, hread]
    rfl
  | cons c t ih =>
    rw [first?_eq_none_iff] at ht
    have hrest : first? t = none :=
      first?_eq_none_iff.mpr fun u hu => ht u (hu.trans (List.suffix_cons c t))
    have hread : read (c :: (t ++ mark digits)) = none :=
      read_append_mark (List.cons_ne_nil c t) (ht _ List.suffix_rfl) digits
    have hfirst := ih hrest
    rw [first?] at hfirst
    rw [List.cons_append, first?, find?, hread, ← hfirst, Option.map_map]
    rfl

variable {more less : Text} {m : Nat}

theorem number_annotated (ht : first? t = none) (hn : Numeral.digits? digits = some n) :
    (first? (t ++ mark digits)).bind Numeral.weight? = if n < Nat.pow 2 32 then some n else none := by
  obtain ⟨hne, hdigits⟩ := Numeral.isDigit_of_digits? hn
  rw [first?_append_mark ht hne fun c hc => Text.isDigit_of_isDigit (hdigits c hc),
    Option.bind_some, Numeral.weight?_of_digits? hn]

theorem ofTrigger_annotated (ht : first? t = none) (hn : Numeral.digits? digits = some n) :
    ofTrigger (t ++ mark digits) = if n < Nat.pow 2 32 then n else 0 := by
  rw [ofTrigger, number_annotated ht hn]
  split <;> rfl

theorem ofReply_annotated (ht : first? t = none) (hn : Numeral.digits? digits = some n) :
    ofReply (t ++ mark digits) = if n < Nat.pow 2 32 then max 1 n else 1 := by
  rw [ofReply, number_annotated ht hn]
  split <;> rfl

end Weight

namespace Entry

open Weight

variable {t p q digits more less : Text} {m n : Nat}

/-- The mark of a level is read in front of an annotation, or not at all. -/
theorem pattern_marked (t digits : Text) :
    ∃ u, u <:+ t ∧ (ofText (t ++ mark digits)).pattern = u ++ mark digits := by
  cases hlevel : readLevel (t ++ mark digits) with
  | none => exact ⟨t, List.suffix_rfl, (ofText_of_readLevel_none hlevel).1⟩
  | some found =>
    obtain ⟨number, rest⟩ := found
    obtain ⟨hmark, hnumber⟩ := readLevel_eq_some hlevel
    have hsplit : t ++ mark digits = "\x7binherits=" ++ (number ++ ['\x7d']) ++ rest := by
      rw [hmark]
      simp
    have ht : t ≠ [] := by
      rintro rfl
      cases hsplit
    obtain ⟨u, rfl, rfl⟩ := Text.split_of_marks ht (head?_mark digits)
      (not_mem_tail (by decide) hnumber) hsplit
    refine ⟨u, List.suffix_append _ _, ?_⟩
    rw [ofText, hlevel]

theorem weight_eq (t : Text) : (ofText t).weight = ofTrigger (ofText t).pattern := by
  rw [ofText]

theorem weight_annotated (ht : first? t = none) (hn : Numeral.digits? digits = some n) :
    (ofText (t ++ mark digits)).weight = if n < Nat.pow 2 32 then n else 0 := by
  obtain ⟨u, hu, hpattern⟩ := pattern_marked t digits
  have hnone : first? u = none :=
    first?_eq_none_iff.mpr fun v hv => first?_eq_none_iff.mp ht v (hv.trans hu)
  rw [weight_eq, hpattern, ofTrigger_annotated hnone hn]

theorem order_of_weights {a b : Entry} (hlevel : a.level = b.level) (h : b.weight < a.weight) :
    order a b = .lt := by
  have hsame : compareLevels a.level b.level = .eq := by
    rw [hlevel]
    cases b.level with
    | none => rfl
    | some level => exact Nat.compare_eq_eq.mpr rfl
  rw [order, hsame, compare_lt_iff_lt.mpr h]
  rfl

/-- What becomes of two weights, of which the second is not larger, behind two triggers and behind two
replies. -/
structure CountsAsWritten (p q t s more less : Text) (m n : Nat) : Prop where
  trigger : (ofText (q ++ mark less)).weight ≤ (ofText (p ++ mark more)).weight ↔
    m < Nat.pow 2 32 ∨ Nat.pow 2 32 ≤ n ∨ n = 0
  reply : ofReply (s ++ mark less) ≤ ofReply (t ++ mark more) ↔
    m < Nat.pow 2 32 ∨ Nat.pow 2 32 ≤ n ∨ n ≤ 1
  /-- Of two triggers of one level the one with the larger weight is tried first, -/
  ahead : (ofText (p ++ mark more)).level = (ofText (q ++ mark less)).level →
    n < m → m < Nat.pow 2 32 → order (ofText (p ++ mark more)) (ofText (q ++ mark less)) = .lt
  /-- but not if it is too large to be read. -/
  behind : (ofText (p ++ mark more)).level = (ofText (q ++ mark less)).level →
    0 < n → n < Nat.pow 2 32 → Nat.pow 2 32 ≤ m →
      order (ofText (q ++ mark less)) (ofText (p ++ mark more)) = .lt

/-- A larger weight counts for less only if it is too large to be read and the other one is not. -/
theorem countsAsWritten {t s : Text} (hmore : Numeral.digits? more = some m)
    (hless : Numeral.digits? less = some n) (hle : n ≤ m) (hp : first? p = none)
    (hq : first? q = none) (ht : first? t = none) (hs : first? s = none) :
    CountsAsWritten p q t s more less m n := by
  have hmore' := weight_annotated hp hmore
  have hless' := weight_annotated hq hless
  constructor
  · rw [hmore', hless']
    split <;> split <;> omega
  · rw [ofReply_annotated ht hmore, ofReply_annotated hs hless]
    split <;> split <;> omega
  · intro hlevel hlt hm
    apply order_of_weights hlevel
    rw [hmore', hless', if_pos hm, if_pos (hlt.trans hm)]
    exact hlt
  · intro hlevel hpos hn hm
    apply order_of_weights hlevel.symm
    rw [hmore', hless', if_neg (Nat.not_lt.mpr hm), if_pos hn]
    exact hpos

theorem greetings_countsAsWritten :
    Numeral.digits? "0010" = some 10 ∧ Numeral.digits? "9" = some 9 ∧
    first? "\x7binherits=2\x7dhello" = none ∧ first? "hi \x7bweight=" = none ∧
    first? "Hello." = none ∧ first? "Hi." = none ∧
    CountsAsWritten "\x7binherits=2\x7dhello" "hi \x7bweight=" "Hello." "Hi." "0010" "9" 10 9 := by
  have hten : Numeral.digits? "0010" = some 10 := by decide
  have hnine : Numeral.digits? "9" = some 9 := by decide
  have hp : first? "\x7binherits=2\x7dhello" = none := by decide
  have hq : first? "hi \x7bweight=" = none := by decide
  have ht : first? "Hello." = none := by decide
  have hs : first? "Hi." = none := by decide
  exact ⟨hten, hnine, hp, hq, ht, hs, countsAsWritten hten hnine (by decide) hp hq ht hs⟩

/-- A weight of 2^32 is not read, and so 5 counts for more, and 2^32 - 1 for more than all others. -/
theorem large_counts_for_less :
    Numeral.digits? "4294967296" = some 4294967296 ∧ Numeral.digits? "5" = some 5 ∧
    first? "often" = none ∧ first? "rare" = none ∧
    (ofText ("often" ++ mark "4294967296")).weight = 0 ∧
    (ofText ("rare" ++ mark "5")).weight = 5 ∧
    order (ofText ("rare" ++ mark "5")) (ofText ("often" ++ mark "4294967296")) = .lt ∧
    ofReply ("often" ++ mark "4294967296") = 1 ∧
    ofReply ("rare" ++ mark "4294967295") = 4294967295 := by
  decide +kernel

end Entry
end Dialogue
