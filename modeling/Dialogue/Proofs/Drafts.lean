import Dialogue.Message.Substitution
import Dialogue.Proofs.Lowered
import Dialogue.Proofs.Numeral
import Dialogue.Proofs.Passes

/-! What is put in for a phrase stays as it is. While phrases are replaced one after the other, the text
is a draft of characters and slots, and no phrase is found across the edge of a slot. -/
namespace Dialogue.Substitution

open Text

/-! ### Where phrases are found -/

def BeginsApart (t : Text) : Prop := ∀ c ∈ t.head?, isWordChar c = false

def EndsApart (t : Text) : Prop := ∀ c ∈ t.getLast?, isWordChar c = false

@[simp] theorem beginsApart_nil : BeginsApart [] := by simp [BeginsApart]

@[simp] theorem endsApart_nil : EndsApart [] := by simp [EndsApart]

@[simp] theorem beginsApart_cons {c : Char} {t : Text} : BeginsApart (c :: t) ↔ isWordChar c = false := by
  simp [BeginsApart]

theorem beginsApart_append {s t : Text} :
    BeginsApart (s ++ t) ↔ BeginsApart s ∧ (s = [] → BeginsApart t) := by
  cases s <;> simp [BeginsApart]

theorem endsApart_append {s t : Text} :
    EndsApart (s ++ t) ↔ EndsApart t ∧ (t = [] → EndsApart s) := by
  rcases List.eq_nil_or_concat t with rfl | ⟨t, c, rfl⟩
  · simp [EndsApart]
  · simp [EndsApart, ← List.append_assoc]

theorem endsApart_of_forall {t : Text} (h : ∀ c ∈ t, isWordChar c = false) : EndsApart t :=
  fun c hc => h c (List.mem_of_getLast? hc)

section Placing

variable {phrase new t lead tail : Text}

/-- Whole phrases in what is left of a text are replaced, one after the other. -/
inductive Placed (phrase new : Text) : (written left result : Text) → Prop
  | stop (written left : Text) : Placed phrase new written left (written ++ left)
  | swap {written lead left result : Text} : EndsApart (written ++ lead) → BeginsApart left →
      Placed phrase new (written ++ lead ++ new) left result →
      Placed phrase new written (lead ++ (phrase ++ left)) result

theorem Placed.keep {written s left result : Text} (h : Placed phrase new (written ++ s) left result) :
    Placed phrase new written (s ++ left) result := by
  generalize hstart : written ++ s = start at h
  cases h with
  | stop =>
    rw [← hstart, List.append_assoc]
    exact .stop written (s ++ left)
  | swap hlead hleft hrest =>
    subst hstart
    rw [List.append_assoc written] at hlead hrest
    rw [← List.append_assoc s]
    exact .swap hlead hleft hrest

theorem of_tail? (h : tail? phrase t = some tail) :
    ∃ after, t = phrase ++ (tail ++ after) ∧ BeginsApart (tail ++ after) ∧
      (tail = [] → after = []) := by
  rw [tail?] at h
  cases hrest : phrase.isPrefixOf? t with
  | none =>
    rw [hrest] at h
    cases h
  | some rest =>
    rw [hrest] at h
    rw [← List.isPrefixOf?_eq_some_iff_append_eq.mp hrest]
    cases rest with
    | nil =>
      cases h
      exact ⟨[], rfl, beginsApart_nil, fun _ => rfl⟩
    | cons c rest =>
      dsimp only at h
      split at h
      · cases h
      · rename_i hc
        cases h
        refine ⟨rest.dropWhile (!isWordChar ·), ?_, ?_, fun hnil => nomatch hnil⟩
        · rw [List.cons_append, List.takeWhile_append_dropWhile]
        · rw [List.cons_append, beginsApart_cons]
          exact Bool.eq_false_iff.mpr hc

theorem of_afterLead? (h : afterLead? phrase t = some (lead, tail)) :
    ∃ u, t = lead ++ u ∧ tail? phrase u = some tail ∧ lead ≠ [] ∧
      ∀ c ∈ lead, isWordChar c = false := by
  induction t generalizing lead with
  | nil => cases h
  | cons c t ih =>
    rw [afterLead?] at h
    split at h
    · cases h
    · rename_i hc
      have hc : isWordChar c = false := Bool.eq_false_iff.mpr hc
      cases hnext : afterLead? phrase t with
      | none =>
        rw [hnext] at h
        obtain ⟨found, htail, hfound⟩ := Option.map_eq_some_iff.mp h
        cases hfound
        exact ⟨t, rfl, htail, List.cons_ne_nil _ _, by simpa using hc⟩
      | some found =>
        obtain ⟨lead', tail'⟩ := found
        rw [hnext] at h
        cases h
        obtain ⟨u, rfl, htail, -, hlead⟩ := ih hnext
        exact ⟨u, rfl, htail, List.cons_ne_nil _ _, List.forall_mem_cons.mpr ⟨hc, hlead⟩⟩

theorem of_whole? {atStart : Bool} (h : whole? phrase atStart t = some (lead, tail)) :
    ∃ u, t = lead ++ u ∧ tail? phrase u = some tail ∧ (lead = [] → atStart) ∧
      ∀ c ∈ lead, isWordChar c = false := by
  rw [whole?] at h
  split at h
  · rename_i hstart
    cases h
    cases atStart with
    | false => cases hstart
    | true => exact ⟨t, rfl, hstart, fun _ => rfl, List.forall_mem_nil _⟩
  · obtain ⟨u, ht, htail, hne, hlead⟩ := of_afterLead? h
    exact ⟨u, ht, htail, fun hnil => absurd hnil hne, hlead⟩

/-- Only at the start of the text a phrase may follow nothing. -/
theorem placed_placeFrom (phrase new t : Text) (previous : Option Char) (skip : Nat) (written : Text)
    (hstart : previous = none → written = []) :
    Placed phrase new written (t.drop skip) (written ++ placeFrom phrase new previous skip t) := by
  induction t generalizing previous skip written with
  | nil =>
    rw [List.drop_nil, placeFrom]
    split
    · rename_i hnone
      obtain ⟨hnone, hphrase⟩ := hnone
      rw [hstart (Option.isNone_iff_eq_none.mp hnone), hphrase]
      have hstop : Placed [] new new [] (new ++ []) := .stop new []
      rw [List.append_nil] at hstop
      exact @Placed.swap [] new [] [] [] new endsApart_nil beginsApart_nil hstop
    · exact .stop written []
  | cons c t ih =>
    cases skip with
    | succ skip => exact ih (some c) skip written (fun hnone => nomatch hnone)
    | zero =>
      rw [List.drop_zero, placeFrom]
      split
      · rename_i lead tail hwhole
        have hwhole : whole? phrase previous.isNone (c :: t) = some (lead, tail) := by
          split at hwhole
          · exact hwhole
          · cases hwhole
        -- The search goes on behind what follows the phrase, which is written with it.
        obtain ⟨u, ht, htail, hlead, hapart⟩ := of_whole? hwhole
        obtain ⟨after, rfl, hleft, hafter⟩ := of_tail? htail
        have hsplit : c :: t = lead ++ phrase ++ tail ++ after := by
          rw [ht]
          simp only [List.append_assoc]
        have hne : lead ++ phrase ++ tail ≠ [] := by
          intro hnil
          have htail : tail = [] := (List.append_eq_nil_iff.mp hnil).2
          rw [hnil, hafter htail] at hsplit
          cases hsplit
        have hdrop : t.drop (lead.length + phrase.length + tail.length - 1) = after := by
          obtain ⟨d, s, hs⟩ := List.exists_cons_of_ne_nil hne
          have hlength := congrArg List.length hs
          simp only [List.length_append, List.length_cons] at hlength
          rw [hs, List.cons_append, List.cons.injEq] at hsplit
          rw [hlength, hsplit.2, Nat.add_sub_cancel, List.drop_left]
        have hends : EndsApart (written ++ lead) := by
          refine endsApart_append.mpr ⟨endsApart_of_forall hapart, fun hnil => ?_⟩
          rw [hstart (Option.isNone_iff_eq_none.mp (hlead hnil))]
          exact endsApart_nil
        have hrest := ih (some c) (lead.length + phrase.length + tail.length - 1)
          (written ++ lead ++ new ++ tail) (fun hnone => nomatch hnone)
        rw [hdrop] at hrest
        have hplaced := Placed.swap hends hleft hrest.keep
        rw [ht]
        simpa only [List.append_assoc] using hplaced
      · have hrest := ih (some c) 0 (written ++ [c]) (fun hnone => nomatch hnone)
        simpa only [List.append_assoc, List.drop_zero, List.singleton_append] using hrest.keep

theorem placed_place (phrase new t : Text) : Placed phrase new [] t (place phrase new t) :=
  placed_placeFrom phrase new t none 0 [] fun _ => rfl

end Placing

/-! ### Drafts -/

/-- A part of a text while phrases are replaced: a character of the message, or what is put in for a
phrase, with the position of its entry. -/
inductive Part where
  | kept (c : Char)
  | replaced (index : Nat) (phrase value : Text)
  deriving DecidableEq, Repr

namespace Part

def before : Part → Text
  | kept c => [c]
  | replaced _ phrase _ => phrase

def meanwhile : Part → Text
  | kept c => [c]
  | replaced index _ _ => slot index

def after : Part → Text
  | kept c => [c]
  | replaced _ _ value => value

end Part

def original (parts : List Part) : Text := parts.flatMap Part.before

def write (parts : List Part) : Text := parts.flatMap Part.meanwhile

def final (parts : List Part) : Text := parts.flatMap Part.after

section Writing

variable {parts front back : List Part} {index : Nat} {phrase value s u : Text} {c : Char}

@[simp] theorem write_append : write (front ++ back) = write front ++ write back := List.flatMap_append

/-- However its parts are written, a message that nothing was replaced in is the message. -/
theorem flatMap_kept {f : Part → Text} (hf : ∀ c, f (.kept c) = [c]) (t : Text) :
    (t.map Part.kept).flatMap f = t := by
  rw [List.flatMap_map]
  simp only [hf]
  exact List.flatMap_singleton' t

@[simp] theorem write_kept (t : Text) : write (t.map .kept) = t := flatMap_kept (fun _ => rfl) t

@[simp] theorem original_append : original (front ++ back) = original front ++ original back :=
  List.flatMap_append

@[simp] theorem original_kept (t : Text) : original (t.map .kept) = t := flatMap_kept (fun _ => rfl) t

theorem original_swap (front : List Part) (index : Nat) (phrase value : Text) (back : List Part) :
    original (front ++ .replaced index phrase value :: back) =
      original (front ++ (phrase.map .kept ++ back)) := by
  rw [original_append, original_append, original_append, original_kept]
  rfl

/-- Between its edges a slot is one word. -/
def slotWord (index : Nat) : Text := 'P' :: 'H' :: (Numeral.ofNat index ++ ['X'])

theorem slot_eq (index : Nat) : slot index = '\x00' :: (slotWord index ++ ['\x00']) := by
  simp [slot, slotWord]

theorem isWordChar_of_mem_slotWord (h : c ∈ slotWord index) : isWordChar c = true := by
  simp only [slotWord, List.mem_cons, List.mem_append, List.not_mem_nil, or_false] at h
  rcases h with rfl | rfl | hdigit | rfl
  · decide
  · decide
  · have hdigit := Numeral.isDigit_of_mem_ofNat hdigit
    rw [isWordChar, if_pos (ascii_of_isDigit hdigit), Char.isAlphanum, hdigit, Bool.or_true, Bool.true_or]
  · decide

/-- Inside a slot, no word ends only behind its first character. -/
theorem cut_slot (h : slot index = s ++ u) (hs : s ≠ []) (hu : u ≠ []) (hends : EndsApart s) :
    u.head? = some 'P' := by
  obtain ⟨c, s, rfl⟩ := List.exists_cons_of_ne_nil hs
  rw [slot_eq, List.cons_append, List.cons.injEq] at h
  obtain ⟨rfl, h⟩ := h
  cases hlast : s.getLast? with
  | none =>
    rw [List.getLast?_eq_none_iff.mp hlast] at h
    rw [← List.nil_append u, ← h]
    rfl
  | some d =>
    have hd : d ∈ slotWord index := by
      have hmem := List.mem_of_getLast? hlast
      rcases List.append_eq_append_iff.mp h with ⟨v, rfl, hv⟩ | ⟨v, hword, -⟩
      · have hnil : v = [] := by
          cases v with
          | nil => rfl
          | cons e v => simp [hu] at hv
        rwa [hnil, List.append_nil] at hmem
      · exact hword ▸ List.mem_append_left v hmem
    have hnot : isWordChar d = false := hends d (by rw [List.getLast?_cons, hlast]; rfl)
    rw [isWordChar_of_mem_slotWord hd] at hnot
    cases hnot

/-- A draft that is cut where no word ends, and no slot goes on, is cut between two of its parts. -/
theorem cut_write (h : write parts = s ++ u) (hs : EndsApart s) (hu : u.head? ≠ some 'P') :
    ∃ front back, parts = front ++ back ∧ write front = s ∧ write back = u := by
  induction parts generalizing s with
  | nil =>
    obtain ⟨rfl, rfl⟩ := List.append_eq_nil_iff.mp h.symm
    exact ⟨[], [], rfl, rfl, rfl⟩
  | cons part parts ih =>
    by_cases hnil : s = []
    · subst hnil
      exact ⟨[], part :: parts, rfl, rfl, h⟩
    have hsplit : part.meanwhile ++ write parts = s ++ u := h
    have hwhole : ∀ v, s = part.meanwhile ++ v → write parts = v ++ u →
        ∃ front back, part :: parts = front ++ back ∧ write front = s ∧ write back = u := by
      intro v hsv hv
      rw [hsv, endsApart_append] at hs
      have hends : EndsApart v := hs.1
      obtain ⟨front, back, rfl, hfront, hback⟩ := ih hv hends
      refine ⟨part :: front, back, rfl, ?_, hback⟩
      rw [hsv, ← hfront]
      rfl
    -- The first part ends before the cut, or the cut is in it.
    rcases List.append_eq_append_iff.mp hsplit with ⟨v, hsv, hv⟩ | ⟨v, hpart, hv⟩
    · exact hwhole v hsv hv
    · by_cases hv' : v = []
      · subst hv'
        rw [List.append_nil] at hpart
        exact hwhole [] (by rw [List.append_nil, hpart]) hv.symm
      cases part with
      | kept c =>
        obtain ⟨d, s, rfl⟩ := List.exists_cons_of_ne_nil hnil
        have hlength := congrArg List.length hpart
        obtain ⟨e, v, rfl⟩ := List.exists_cons_of_ne_nil hv'
        simp [Part.meanwhile] at hlength
      | replaced index phrase value =>
        have hhead := cut_slot hpart hnil hv' hs
        rw [hv, List.head?_append, hhead] at hu
        exact absurd rfl hu

/-- What is read from the edge of a part without the sign that begins a slot are characters that were
kept. -/
theorem kept_of_write (h : write parts = phrase ++ u) (hphrase : '\x00' ∉ phrase) :
    ∃ back, parts = phrase.map .kept ++ back ∧ write back = u := by
  induction phrase generalizing parts with
  | nil => exact ⟨parts, rfl, h⟩
  | cons c phrase ih =>
    rw [List.mem_cons, not_or] at hphrase
    cases parts with
    | nil => cases h
    | cons part parts =>
      cases part with
      | kept d =>
        obtain ⟨rfl, hrest⟩ := List.cons.inj h
        obtain ⟨back, rfl, hback⟩ := ih hrest hphrase.2
        exact ⟨back, rfl, hback⟩
      | replaced index phrase' value =>
        have hslot : slot index ++ write parts = c :: phrase ++ u := h
        rw [slot_eq] at hslot
        exact absurd (List.cons.inj hslot).1 hphrase.1

end Writing

/-! ### What holds of every draft -/

/-- Words do not go on across the ends of a phrase that begins or ends with one. -/
structure Whole (before phrase after : Text) : Prop where
  begins : ¬ BeginsApart phrase → EndsApart before
  ends : ¬ EndsApart phrase → BeginsApart after

structure Draft (s : Substitution) (message : Text) (parts : List Part) : Prop where
  original : original parts = message
  entry : ∀ index phrase value, .replaced index phrase value ∈ parts →
    s.entries[index]? = some (phrase, value)
  /-- No word stands at a slot. -/
  fenced : ∀ front index phrase value back, parts = front ++ .replaced index phrase value :: back →
    EndsApart (write front) ∧ BeginsApart (write back)
  whole : ∀ front index phrase value back, parts = front ++ .replaced index phrase value :: back →
    Whole (Substitution.original front) phrase (Substitution.original back)

section Drafting

variable {s : Substitution} {message phrase value : Text} {parts front back : List Part} {index : Nat}

theorem draft_kept (s : Substitution) (message : Text) : Draft s message (message.map .kept) where
  original := original_kept message
  entry index phrase value hmem := by simp at hmem
  fenced front index phrase value back hparts := by
    have hmem : Part.replaced index phrase value ∈ message.map Part.kept := by simp [hparts]
    simp at hmem
  whole front index phrase value back hparts := by
    have hmem : Part.replaced index phrase value ∈ message.map Part.kept := by simp [hparts]
    simp at hmem

theorem beginsApart_slot (index : Nat) (t : Text) : BeginsApart (slot index ++ t) := by
  rw [slot_eq, List.cons_append, beginsApart_cons]
  decide

theorem endsApart_slot (index : Nat) (t : Text) : EndsApart (t ++ slot index) := by
  rw [slot_eq, ← List.cons_append, ← List.append_assoc]
  refine endsApart_append.mpr ⟨?_, fun hnil => nomatch hnil⟩
  intro c hc
  cases hc
  decide

/-- The two ways in which one of two parts of a list can stand before the other one, or they are the same. -/
theorem split_around {α : Type} {a b c d : List α} {x y : α} (h : a ++ x :: b = c ++ y :: d) :
    (a = c ∧ x = y ∧ b = d) ∨ (∃ m, a = c ++ y :: m ∧ d = m ++ x :: b) ∨
      (∃ m, c = a ++ x :: m ∧ b = m ++ y :: d) := by
  rcases List.append_eq_append_iff.mp h with ⟨m, rfl, hm⟩ | ⟨m, rfl, hm⟩
  · cases m with
    | nil =>
      obtain ⟨rfl, rfl⟩ := List.cons.inj hm
      exact .inl ⟨(List.append_nil a).symm, rfl, rfl⟩
    | cons z m =>
      obtain ⟨rfl, rfl⟩ := List.cons.inj hm
      exact .inr (.inr ⟨m, rfl, rfl⟩)
  · cases m with
    | nil =>
      obtain ⟨rfl, rfl⟩ := List.cons.inj hm
      exact .inl ⟨List.append_nil c, rfl, rfl⟩
    | cons z m =>
      obtain ⟨rfl, rfl⟩ := List.cons.inj hm
      exact .inr (.inl ⟨m, rfl, rfl⟩)

/-- The neighbors of a phrase that begins or ends with a word are not slots, and so they are those that it
has in the message. -/
theorem Draft.whole_phrase (h : Draft s message (front ++ (phrase.map .kept ++ back)))
    (hfront : EndsApart (write front)) (hback : BeginsApart (write back)) :
    Whole (Substitution.original front) phrase (Substitution.original back) where
  begins hphrase := by
    rcases List.eq_nil_or_concat front with rfl | ⟨front, part, rfl⟩
    · exact endsApart_nil
    · rw [List.concat_eq_append] at h hfront ⊢
      cases part with
      | kept c =>
        rw [write_append, endsApart_append] at hfront
        rw [original_append, endsApart_append]
        exact ⟨hfront.1, fun hnil => nomatch hnil⟩
      | replaced index phrase' value =>
        have hfenced := (h.fenced front index phrase' value (phrase.map .kept ++ back)
          (by simp only [List.append_assoc, List.singleton_append])).2
        rw [write_append, write_kept, beginsApart_append] at hfenced
        exact absurd hfenced.1 hphrase
  ends hphrase := by
    cases back with
    | nil => exact beginsApart_nil
    | cons part back =>
      cases part with
      | kept c => exact beginsApart_cons.mpr (beginsApart_cons.mp hback)
      | replaced index phrase' value =>
        have hfenced := (h.fenced (front ++ phrase.map .kept) index phrase' value back
          (List.append_assoc _ _ _).symm).1
        rw [write_append, write_kept, endsApart_append] at hfenced
        exact absurd hfenced.1 hphrase

/-- One more phrase is replaced. -/
theorem Draft.swap (h : Draft s message (front ++ (phrase.map .kept ++ back)))
    (hentry : s.entries[index]? = some (phrase, value)) (hfront : EndsApart (write front))
    (hback : BeginsApart (write back)) :
    Draft s message (front ++ .replaced index phrase value :: back) where
  original := by rw [original_swap, h.original]
  entry index' phrase' value' hmem := by
    rcases List.mem_append.mp hmem with hmem | hmem
    · exact h.entry _ _ _ (List.mem_append_left _ hmem)
    · rcases List.mem_cons.mp hmem with heq | hmem
      · cases heq
        exact hentry
      · exact h.entry _ _ _ (List.mem_append_right _ (List.mem_append_right _ hmem))
  -- Next to an older slot there is now the edge of the new one, or what was there before.
  fenced before index' phrase' value' after hparts := by
    rcases split_around hparts with ⟨rfl, heq, rfl⟩ | ⟨middle, rfl, rfl⟩ | ⟨middle, rfl, rfl⟩
    · exact ⟨hfront, hback⟩
    · obtain ⟨hbefore, hafter⟩ := h.fenced before index' phrase' value'
        (middle ++ (phrase.map .kept ++ back)) (List.append_assoc _ _ _)
      refine ⟨hbefore, ?_⟩
      rw [write_append, beginsApart_append] at hafter ⊢
      exact ⟨hafter.1, fun _ => beginsApart_slot index (write back)⟩
    · obtain ⟨hbefore, hafter⟩ := h.fenced (front ++ (phrase.map .kept ++ middle)) index' phrase' value'
        after (by simp only [List.append_assoc])
      refine ⟨?_, hafter⟩
      rw [← List.append_assoc, write_append, endsApart_append] at hbefore
      rw [← List.singleton_append, ← List.append_assoc, write_append, endsApart_append]
      refine ⟨hbefore.1, fun _ => ?_⟩
      have hslot : write [.replaced index phrase value] = slot index := List.append_nil _
      rw [write_append, hslot]
      exact endsApart_slot index (write front)
  whole before index' phrase' value' after hparts := by
    rcases split_around hparts with ⟨rfl, heq, rfl⟩ | ⟨middle, rfl, rfl⟩ | ⟨middle, rfl, rfl⟩
    · cases heq
      exact h.whole_phrase hfront hback
    · have hwhole := h.whole before index' phrase' value' (middle ++ (phrase.map .kept ++ back))
        (List.append_assoc _ _ _)
      rwa [original_swap]
    · have hwhole := h.whole (front ++ (phrase.map .kept ++ middle)) index' phrase' value' after
        (by simp only [List.append_assoc])
      rwa [original_swap]

theorem head?_ne_of_phrase {left : Text} (hphrase : 'P' ∉ phrase) (hleft : BeginsApart left) :
    (phrase ++ left).head? ≠ some 'P' := by
  intro hhead
  cases phrase with
  | nil => exact absurd (hleft 'P' hhead) (by decide)
  | cons c phrase =>
    cases hhead
    exact hphrase List.mem_cons_self

/-- What is made of a draft when whole phrases are replaced in it is a draft again. -/
theorem Draft.placed (hentry : s.entries[index]? = some (phrase, value)) (hnul : '\x00' ∉ phrase)
    (hletter : 'P' ∉ phrase) {written left result : Text}
    (hplaced : Placed phrase (slot index) written left result) (hfront : write front = written)
    (hback : write back = left) (h : Draft s message (front ++ back)) :
    ∃ parts, write parts = result ∧ Draft s message parts := by
  induction hplaced generalizing front back with
  | stop written left => exact ⟨front ++ back, by rw [write_append, hfront, hback], h⟩
  | @swap written lead left result hlead hleft _ ih =>
    obtain ⟨middle, rest, rfl, hmiddle, hrest⟩ :=
      cut_write hback (endsApart_append.mp hlead).1 (head?_ne_of_phrase hletter hleft)
    obtain ⟨back, rfl, rfl⟩ := kept_of_write hrest hnul
    have hbefore : write (front ++ middle) = written ++ lead := by
      rw [write_append, hfront, hmiddle]
    rw [← List.append_assoc] at h
    have hswap := h.swap hentry (hbefore ▸ hlead) hleft
    rw [← List.singleton_append, ← List.append_assoc] at hswap
    refine ih ?_ rfl hswap
    rw [write_append, hbefore]
    exact congrArg (written ++ lead ++ ·) (List.append_nil (slot index))

theorem Draft.placeAll (hs : ∀ e ∈ s.entries, '\x00' ∉ e.1 ∧ 'P' ∉ e.1)
    {entries : List (Text × Text)} (hentries : s.entries.drop index = entries)
    (h : Draft s message parts) :
    ∃ parts', write parts' = Substitution.placeAll index entries (write parts) ∧
      Draft s message parts' := by
  induction entries generalizing index parts with
  | nil => exact ⟨parts, rfl, h⟩
  | cons e entries ih =>
    obtain ⟨phrase, value⟩ := e
    have hentry : s.entries[index]? = some (phrase, value) := by
      rw [← List.head?_drop, hentries, List.head?_cons]
    have hdrop : s.entries.drop (index + 1) = entries := by
      rw [← List.tail_drop, hentries, List.tail_cons]
    obtain ⟨hnul, hletter⟩ := hs _ (List.mem_of_getElem? hentry)
    have hstart : write [] = [] := rfl
    obtain ⟨parts', hparts', hdraft⟩ := Draft.placed hentry hnul hletter
      (placed_place phrase (slot index) (write parts)) hstart rfl h
    obtain ⟨parts'', hparts'', hdraft'⟩ := ih hdrop hdraft
    exact ⟨parts'', by rw [hparts'', hparts', Substitution.placeAll], hdraft'⟩

end Drafting

/-! ### Filling the slots -/

section Filling

variable {s : Substitution} {message phrase value t : Text} {parts : List Part} {index : Nat}

theorem readSlot_of_head? {c : Char} (h : t.head? ≠ some 'P') : readSlot (c :: t) = none := by
  have hprefix : List.isPrefixOf? ("\x00PH" : Text) (c :: t) = none := by
    cases hp : List.isPrefixOf? ("\x00PH" : Text) (c :: t) with
    | none => rfl
    | some rest =>
      have hsplit : '\x00' :: 'P' :: 'H' :: rest = c :: t :=
        List.isPrefixOf?_eq_some_iff_append_eq.mp hp
      cases hsplit
      exact absurd rfl h
  rw [readSlot, hprefix]
  rfl

theorem readSlot_slot (index : Nat) (t : Text) :
    readSlot (slot index ++ t) = some (Numeral.ofNat index, t) := by
  have hprefix : List.isPrefixOf? ("\x00PH" : Text) (slot index ++ t) =
      some (Numeral.ofNat index ++ 'X' :: '\x00' :: t) := by
    rw [List.isPrefixOf?_eq_some_iff_append_eq, slot]
    simp
  have hdigits : ∀ c ∈ Numeral.ofNat index, isDigit c = true := fun c hc =>
    isDigit_of_isDigit (Numeral.isDigit_of_mem_ofNat hc)
  have hletter : isDigit 'X' = false := by decide
  obtain ⟨htake, hdrop⟩ := read_while hdigits hletter ('\x00' :: t)
  rw [readSlot, hprefix, Option.bind_eq_bind, Option.bind_some]
  dsimp only
  rw [htake, hdrop, if_neg (Numeral.ofNat_ne_nil index)]
  rfl

theorem filling_ofNat (hlength : s.entries.length ≤ Nat.pow 2 64)
    (hentry : s.entries[index]? = some (phrase, value)) : s.filling (Numeral.ofNat index) = value := by
  have hindex : index < Nat.pow 2 64 :=
    lt_of_lt_of_le (List.getElem?_eq_some_iff.mp hentry).1 hlength
  have hcount : Numeral.count? (Numeral.ofNat index) = some index := by
    rw [Numeral.count?, Numeral.below?_ofNat, if_pos hindex]
  rw [filling, hcount, Option.bind_some, hentry]
  rfl

theorem head?_write_ne (hletter : .kept 'P' ∉ parts) : (write parts).head? ≠ some 'P' := by
  intro hhead
  cases parts with
  | nil => cases hhead
  | cons part parts =>
    cases part with
    | kept c =>
      cases hhead
      exact hletter List.mem_cons_self
    | replaced index phrase value => cases hhead

/-- What a part is when the slots have been filled. -/
def Part.filled (s : Substitution) : Part → Text
  | kept c => [c]
  | replaced index _ _ => s.filling (Numeral.ofNat index)

/-- No character that was kept takes part in a slot, and so exactly those are filled that were put in. -/
theorem fill_parts (hletter : .kept 'P' ∉ parts) : s.fill (write parts) = parts.flatMap (Part.filled s) := by
  induction parts with
  | nil => rfl
  | cons part parts ih =>
    rw [List.mem_cons, not_or] at hletter
    rw [List.flatMap_cons, ← ih hletter.2]
    cases part with
    | kept c =>
      have hread := @readSlot_of_head? _ c (head?_write_ne hletter.2)
      show s.fill (c :: write parts) = c :: s.fill (write parts)
      rw [fill, edit, editFrom, hread]
      rfl
    | replaced index phrase value =>
      have hne : slot index ≠ [] := by
        rw [slot_eq]
        exact List.cons_ne_nil _ _
      show s.fill (slot index ++ write parts) = s.filling (Numeral.ofNat index) ++ s.fill (write parts)
      rw [fill, edit_of_read hne (by rw [readSlot_slot]; rfl)]
      rfl

theorem fill_write (hlength : s.entries.length ≤ Nat.pow 2 64)
    (hentry : ∀ index phrase value, .replaced index phrase value ∈ parts →
      s.entries[index]? = some (phrase, value))
    (hletter : .kept 'P' ∉ parts) : s.fill (write parts) = final parts := by
  rw [fill_parts hletter, final, List.flatMap_def, List.flatMap_def]
  congr 1
  apply List.map_congr_left
  intro part hpart
  cases part with
  | kept c => rfl
  | replaced index phrase value => exact filling_ofNat hlength (hentry _ _ _ hpart)

end Filling

/-! ### The whole substitution -/

section Applying

variable {s : Substitution} {table : Table Text} {takes : Text → Bool} {message phrase value : Text}

@[simp] theorem final_kept (t : Text) : final (t.map .kept) = t := flatMap_kept (fun _ => rfl) t

theorem exists_draft (hs : ∀ e ∈ s.entries, '\x00' ∉ e.1 ∧ 'P' ∉ e.1) (hmessage : 'P' ∉ message)
    (hlength : s.entries.length ≤ Nat.pow 2 64) :
    ∃ parts, Draft s message parts ∧ final parts = s.apply message := by
  rw [apply]
  split
  · exact ⟨_, draft_kept s message, final_kept message⟩
  · obtain ⟨parts, hwrite, hdraft⟩ := (draft_kept s message).placeAll hs List.drop_zero
    have hletter : Part.kept 'P' ∉ parts := by
      intro hmem
      rw [← hdraft.original] at hmessage
      exact hmessage (List.mem_flatMap.mpr ⟨_, hmem, List.mem_singleton_self _⟩)
    refine ⟨parts, hdraft, ?_⟩
    rw [← fill_write hlength hdraft.entry hletter, hwrite, write_kept]

/-- What is kept of a table stands in it. -/
theorem mem_entries_keep {e : Text × Text} (h : e ∈ ((ofTable table).keep takes).entries) :
    ∃ key, (key, e.2) ∈ table.entries ∧ e.1 = lower key := by
  obtain ⟨⟨key, value⟩, hmem, rfl⟩ := List.mem_map.mp (List.mem_of_mem_filter h)
  exact ⟨key, List.mem_mergeSort.mp hmem, rfl⟩

theorem beginsApart_of_lower {key : Text} (h : BeginsApart (lower key)) : BeginsApart key := by
  cases key with
  | nil => exact beginsApart_nil
  | cons c t =>
    rw [beginsApart_cons, ← Bool.not_eq_true]
    intro hc
    obtain ⟨d, hd, hword⟩ := @isWordChar_head?_lower c t hc
    rw [h d hd] at hword
    cases hword

theorem endsApart_of_lower {key : Text} (h : EndsApart (lower key)) : EndsApart key := by
  rcases List.eq_nil_or_concat key with rfl | ⟨t, c, rfl⟩
  · exact endsApart_nil
  · rw [List.concat_eq_append] at h ⊢
    refine endsApart_append.mpr ⟨fun d hd => ?_, fun hnil => nomatch hnil⟩
    obtain rfl : c = d := Option.some.inj hd
    rw [← Bool.not_eq_true]
    intro hc
    obtain ⟨d, hd, hword⟩ := @isWordChar_getLast?_lower c t hc
    rw [h d hd] at hword
    cases hword

/-- A message and what a substitution makes of it, part by part: a character is kept, or a phrase is
replaced by the value of its key. -/
structure Rewritten (table : Table Text) (message result : Text) (parts : List Part) : Prop where
  original : original parts = message
  final : final parts = result
  entry : ∀ front index phrase value back, parts = front ++ .replaced index phrase value :: back →
    ∃ key, (key, value) ∈ table.entries ∧ phrase = lower key ∧
      Whole (Substitution.original front) key (Substitution.original back)

/-- What one entry puts in is not changed by another one, and no slot is left, whichever phrases are
taken. Slots are numbered in 64 bits, which is more than there is memory for. -/
theorem apply_rewrites (takes : Text → Bool) (hkeys : ∀ e ∈ table.entries, '\x00' ∉ e.1)
    (hlength : table.entries.length ≤ Nat.pow 2 64) (hmessage : ∀ c ∈ message, c.isUpper = false) :
    ∃ parts, Rewritten table message (((ofTable table).keep takes).apply message) parts := by
  have hs : ∀ e ∈ ((ofTable table).keep takes).entries, '\x00' ∉ e.1 ∧ 'P' ∉ e.1 := by
    intro e he
    obtain ⟨key, hkey, hphrase⟩ := mem_entries_keep he
    rw [hphrase]
    exact ⟨fun hnul => hkeys _ hkey (nul_of_mem_lower hnul),
      fun hletter => absurd (isLow_of_mem_lower hletter) (by decide)⟩
  have hletter : 'P' ∉ message := fun hmem => absurd (hmessage _ hmem) (by decide)
  have hentries : ((ofTable table).keep takes).entries.length ≤ Nat.pow 2 64 := by
    refine (List.length_filter_le _ _).trans ?_
    rw [ofTable, List.length_map, List.length_mergeSort]
    exact hlength
  obtain ⟨parts, hdraft, hfinal⟩ := exists_draft hs hletter hentries
  refine ⟨parts, hdraft.original, hfinal, ?_⟩
  intro front index phrase value back hparts
  have hentry := hdraft.entry index phrase value (by simp [hparts])
  obtain ⟨key, hkey, hphrase⟩ := mem_entries_keep (List.mem_of_getElem? hentry)
  have hwhole := hdraft.whole front index phrase value back hparts
  refine ⟨key, hkey, hphrase, ?_, ?_⟩
  · intro hbegins
    exact hwhole.begins fun h => hbegins (beginsApart_of_lower (hphrase ▸ h))
  · intro hends
    exact hwhole.ends fun h => hends (endsApart_of_lower (hphrase ▸ h))

def contractions : Table Text := ⟨[("What's", "what is"), ("I'm", "what's"), ("1", "\x00PH0X\x00")]⟩

/-- Neither a value that is a phrase itself nor one that looks like a slot is changed. -/
theorem contractions_rewrite :
    (∀ e ∈ contractions.entries, '\x00' ∉ e.1) ∧ contractions.entries.length ≤ Nat.pow 2 64 ∧
    (∀ c ∈ ("what's 1 i'm" : Text), c.isUpper = false) ∧
    (∃ parts, Rewritten contractions "what's 1 i'm"
      (((ofTable contractions).keep fun _ => true).apply "what's 1 i'm") parts) ∧
    ((ofTable contractions).keep fun _ => true).apply "what's 1 i'm" = "what is \x00PH0X\x00 what's" := by
  have hkeys : ∀ e ∈ contractions.entries, '\x00' ∉ e.1 := by decide
  have hlength : contractions.entries.length ≤ Nat.pow 2 64 := by decide
  have hmessage : ∀ c ∈ ("what's 1 i'm" : Text), c.isUpper = false :=
    List.all_iff_forall_prop.mp (by decide)
  have hsorted : contractions.entries.mergeSort (fun a b => (phraseOrder a.1 b.1).isLE) =
      contractions.entries := List.mergeSort_of_pairwise (by decide +kernel)
  refine ⟨hkeys, hlength, hmessage, apply_rewrites _ hkeys hlength hmessage, ?_⟩
  rw [ofTable, hsorted]
  decide +kernel

end Applying

end Dialogue.Substitution
