import Dialogue.Proofs.Brackets
import Dialogue.Proofs.Features
import Dialogue.Proofs.Literal
import Dialogue.Proofs.Passes

/-! What the scan of a trigger comes upon. Each sign can be followed on its own, and annotations make
no difference unless one of them parts a backslash from what it would escape. -/
namespace Dialogue

open Text

variable {f : Feature} {c : Char} {t u v : Text}

theorem Feature.sign_ne (f : Feature) : f.sign ≠ '\\' ∧ isSpace f.sign = false := by
  rcases f with (_ | _ | _) | _ <;> decide

/-! ### The scan as a search for one sign -/

/-- Whether the scan comes upon the sign of a feature. Only an underscore can be escaped. -/
def Feature.seenIn (f : Feature) : (escaped : Bool) → Text → Bool
  | _, [] => false
  | escaped, '\\' :: t => f.seenIn (!escaped) t
  | escaped, c :: t => (c == f.sign && !(escaped && f == .wild .letters)) || f.seenIn false t

def Shape.has (s : Shape) : Feature → Bool
  | .wild .letters => s.letters
  | .wild .number => s.number
  | .wild .anything => s.anything
  | .optional => s.optional

theorem Shape.has_scan (s : Shape) (escaped : Bool) (t : Text) :
    (s.scan escaped t).has f = (s.has f || f.seenIn escaped t) := by
  fun_induction scan s escaped t with
  | case1 => simp [Feature.seenIn]
  | case2 s escaped t ih => simpa [Feature.seenIn] using ih
  | case3 s escaped c t hc s' ih =>
    rw [ih, Feature.seenIn.eq_3 _ _ _ _ hc, ← Bool.or_assoc]
    congr 1
    dsimp only [s']
    rcases f with (_ | _ | _) | _ <;> split <;> simp_all [has, Feature.sign]

namespace Feature

theorem seenIn_cons (hc : c ≠ '\\') (escaped : Bool) (t : Text) : f.seenIn escaped (c :: t) =
    (c == f.sign && !(escaped && f == .wild .letters) || f.seenIn false t) :=
  seenIn.eq_3 f escaped c t hc

/-- Any other character ends an escape. -/
theorem seenIn_cons_other (hc : c ≠ '\\') (hsign : c ≠ f.sign) (escaped : Bool) (t : Text) :
    f.seenIn escaped (c :: t) = f.seenIn false t := by
  simp [seenIn_cons hc, hsign]

theorem seenIn_cons_space (hc : isSpace c) (escaped : Bool) (t : Text) :
    f.seenIn escaped (c :: t) = f.seenIn false t := by
  apply seenIn_cons_other
  · rintro rfl
    exact absurd hc (by decide)
  · rintro rfl
    rw [f.sign_ne.2] at hc
    cases hc

theorem seenIn_blanks (ht : ∀ c ∈ t, isSpace c) (u : Text) :
    f.seenIn false (t ++ u) = f.seenIn false u := by
  induction t with
  | nil => rfl
  | cons c t ih =>
    rw [List.forall_mem_cons] at ht
    rw [List.cons_append, seenIn_cons_space ht.1, ih ht.2]

/-- All signs but an underscore are seen after a backslash too. -/
theorem seenIn_escaped (hf : f ≠ .wild .letters) (escaped : Bool) (t : Text) :
    f.seenIn escaped t = f.seenIn false t := by
  induction t generalizing escaped with
  | nil => rfl
  | cons c t ih =>
    by_cases hc : c = '\\'
    · subst hc
      rw [seenIn, seenIn, ih]
      exact (ih true).symm
    · have hbeq : (f == .wild .letters) = false := beq_eq_false_iff_ne.mpr hf
      simp [seenIn_cons hc, hbeq]

/-- What follows is seen apart from what stands before it, if the break ends an escape. -/
theorem seenIn_append_cons (hc : c ≠ '\\') (hsign : c ≠ f.sign) (escaped : Bool) (t u : Text) :
    f.seenIn escaped (t ++ c :: u) = (f.seenIn escaped t || f.seenIn false u) := by
  induction t generalizing escaped with
  | nil => simp [seenIn_cons_other hc hsign, seenIn]
  | cons d t ih =>
    by_cases hd : d = '\\'
    · subst hd
      rw [List.cons_append, seenIn, seenIn, ih]
    · rw [List.cons_append, seenIn_cons hd, seenIn_cons hd, ih, Bool.or_assoc]

theorem seenIn_append (ht : '\\' ∉ t) (u : Text) :
    f.seenIn false (t ++ u) = (f.seenIn false t || f.seenIn false u) := by
  induction t with
  | nil => rfl
  | cons d t ih =>
    rw [List.mem_cons, not_or] at ht
    have hd : d ≠ '\\' := Ne.symm ht.1
    rw [List.cons_append, seenIn_cons hd, seenIn_cons hd, ih ht.2, Bool.or_assoc]

theorem seenIn_append_blanks (hu : ∀ c ∈ u, isSpace c) (escaped : Bool) (t : Text) :
    f.seenIn escaped (t ++ u) = f.seenIn escaped t := by
  cases u with
  | nil => rw [List.append_nil]
  | cons c u =>
    rw [List.forall_mem_cons] at hu
    have hrest := seenIn_blanks (f := f) hu.2 []
    rw [List.append_nil] at hrest
    have hc : c ≠ '\\' := by
      rintro rfl
      exact absurd hu.1 (by decide)
    have hsign : c ≠ f.sign := by
      rintro rfl
      rw [f.sign_ne.2] at hu
      cases hu.1
    rw [seenIn_append_cons hc hsign, hrest]
    exact Bool.or_false _

theorem mem_of_seenIn {escaped : Bool} (h : f.seenIn escaped t) : f.sign ∈ t := by
  induction t generalizing escaped with
  | nil => cases h
  | cons c t ih =>
    by_cases hc : c = '\\'
    · subst hc
      rw [seenIn] at h
      exact List.mem_cons_of_mem _ (ih h)
    · rw [seenIn_cons hc, Bool.or_eq_true, Bool.and_eq_true, beq_iff_eq] at h
      rcases h with ⟨rfl, -⟩ | h
      · exact List.mem_cons_self
      · exact List.mem_cons_of_mem _ (ih h)

theorem seenIn_trim (t : Text) : f.seenIn false (trim t) = f.seenIn false t := by
  have hstart : f.seenIn false (trimStart t) = f.seenIn false t := by
    obtain ⟨s, hs, hsplit⟩ := trimStart_eq t
    conv_rhs => rw [hsplit]
    exact (seenIn_blanks hs _).symm
  obtain ⟨s, hs, hsplit⟩ := trimStart_eq (trimStart t).reverse
  have hend : trimStart t = trim t ++ s.reverse := by
    have hreverse := congrArg List.reverse hsplit
    rw [List.reverse_reverse, List.reverse_append] at hreverse
    exact hreverse
  rw [← hstart, hend, seenIn_append_blanks fun c hc => hs c (List.mem_reverse.mp hc)]

end Feature

/-! ### Annotations -/

namespace Weight

/-- A pattern with a blank in the place of each annotation and of the white space around it. -/
def spaced (t : Text) : Text := edit (fun t => (readWithSpace t).map fun (_, rest) => ([' '], rest)) t

/-- A pattern, what is left of it without its annotations, and what is left if each of them leaves a
blank. -/
inductive Cleared : Text → Text → Text → Prop where
  | nil : Cleared [] [] []
  | keep {t u v : Text} (c : Char) : Cleared t u v → Cleared (c :: t) (c :: u) (c :: v)
  | drop {before marked digits after t u v : Text} : (∀ c ∈ before, isSpace c) →
      (∀ c ∈ after, isSpace c) → read marked = some (digits, after ++ t) → Cleared t u v →
      Cleared (before ++ marked) (before ++ (after ++ u)) (' ' :: v)

theorem mark_of_read {t digits rest : Text} (h : read t = some (digits, rest)) :
    ∃ mark, mark ≠ [] ∧ t = mark ++ rest := by
  have heq := (@of_readNumber "\x7bweight=" t digits rest h).1
  refine ⟨"\x7bweight=" ++ (digits ++ ['\x7d']), by simp, ?_⟩
  rw [heq]
  simp

theorem not_mem_of_spaces (ht : ∀ c ∈ t, isSpace c) : '\x7b' ∉ t := by
  intro hmem
  exact absurd (ht _ hmem) (by decide)

/-- No annotation begins in white space, so it stays. -/
theorem remove_spaces (ht : ∀ c ∈ t, isSpace c) (u : Text) : remove (t ++ u) = t ++ remove u :=
  edit_append_of_not_mem (opens_read.map _) (not_mem_of_spaces ht) u

theorem remove_of_read {digits rest : Text} (h : read t = some (digits, rest)) :
    remove t = remove rest := by
  obtain ⟨mark, hmark, rfl⟩ := mark_of_read h
  rw [remove, edit_of_read hmark (by rw [h]; rfl)]
  rfl

theorem spaced_of_read {digits rest : Text} (h : readWithSpace t = some (digits, rest)) :
    spaced t = ' ' :: spaced rest := by
  obtain ⟨taken, htaken, rfl, -⟩ := readWithSpace_eq_some h
  rw [spaced, edit_of_read htaken (by rw [h]; rfl)]
  rfl

theorem read_of_readWithSpace (h : readWithSpace (c :: t) = none) : read (c :: t) = none := by
  cases hread : read (c :: t) with
  | none => rfl
  | some found =>
    obtain ⟨w, hw⟩ := head_of_read hread
    obtain rfl : c = '\x7b' := (List.cons.inj hw).1
    have hstart : trimStart ('\x7b' :: t) = '\x7b' :: t :=
      List.dropWhile_cons_of_neg (by decide)
    rw [readWithSpace, hstart, hread] at h
    cases h

theorem cleared_cons (h : readWithSpace (c :: t) = none) (ht : Cleared t (remove t) (spaced t)) :
    Cleared (c :: t) (remove (c :: t)) (spaced (c :: t)) := by
  have hremove : remove (c :: t) = c :: remove t := by
    rw [remove, edit, editFrom, read_of_readWithSpace h]
    rfl
  have hspaced : spaced (c :: t) = c :: spaced t := by
    rw [spaced, edit, editFrom, h]
    rfl
  rw [hremove, hspaced]
  exact .keep c ht

theorem cleared_of_read {digits rest : Text} (h : readWithSpace t = some (digits, rest))
    (hrest : Cleared rest (remove rest) (spaced rest)) : Cleared t (remove t) (spaced t) := by
  rw [spaced_of_read h]
  obtain ⟨⟨_, behind⟩, hread, heq⟩ := Option.bind_eq_some_iff.mp h
  cases heq
  obtain ⟨before, hbefore, hsplit⟩ := trimStart_eq t
  obtain ⟨after, hafter, hbehind⟩ := trimStart_eq behind
  have hremove : remove behind = after ++ remove (trimStart behind) := by
    conv_lhs => rw [hbehind]
    exact remove_spaces hafter _
  rw [hsplit, remove_spaces hbefore, remove_of_read hread, hremove]
  rw [hbehind] at hread
  exact .drop hbefore hafter hread hrest

/-- Both ways to take annotations away take away the same. -/
theorem cleared (t : Text) : Cleared t (remove t) (spaced t) := by
  induction hn : t.length using Nat.strong_induction_on generalizing t with
  | _ n ih =>
    cases t with
    | nil => exact .nil
    | cons c t =>
      cases hw : readWithSpace (c :: t) with
      | none => exact cleared_cons hw (ih t.length (by simp [← hn]) t rfl)
      | some found =>
        obtain ⟨taken, htaken, htext, -⟩ := readWithSpace_eq_some hw
        have hlength : found.2.length < n := by
          rw [← hn, htext, List.length_append]
          have hpos := List.length_pos_of_ne_nil htaken
          omega
        exact cleared_of_read hw (ih _ hlength found.2 rfl)

/-- No annotation stands between a backslash and what it would escape. -/
def Apart (t : Text) : Prop := ∀ u, '\\' :: u <:+ t → read u = none

theorem Apart.of_suffix (h : Apart t) (hu : u <:+ t) : Apart u :=
  fun v hv => h v (hv.trans hu)

/-- The scan sees the same in both, though underscores only if no annotation comes between one of
them and a backslash. -/
theorem Cleared.seenIn {escaped : Bool} (h : Cleared t u v) (hapart : f = .wild .letters → Apart t)
    (hescaped : f = .wild .letters → escaped = true → read t = none) :
    f.seenIn escaped u = f.seenIn escaped v := by
  induction h generalizing escaped with
  | nil => rfl
  | @keep t u v c hrest ih =>
    have hrestApart := fun hf => (hapart hf).of_suffix (List.suffix_cons c t)
    by_cases hc : c = '\\'
    · subst hc
      rw [Feature.seenIn, Feature.seenIn]
      apply ih hrestApart
      intro hf _
      exact hapart hf t List.suffix_rfl
    · rw [Feature.seenIn_cons hc, Feature.seenIn_cons hc, @ih false hrestApart fun _ h => nomatch h]
  | @drop before marked digits after t u v hbefore hafter hread hrest ih =>
    obtain ⟨mark, -, rfl⟩ := mark_of_read hread
    have hsuffix : t <:+ before ++ (mark ++ (after ++ t)) :=
      ((List.suffix_append after t).trans (List.suffix_append mark _)).trans
        (List.suffix_append before _)
    have hsame := @ih false (fun hf => (hapart hf).of_suffix hsuffix) fun _ h => nomatch h
    rw [Feature.seenIn_cons_space (by decide), ← hsame]
    cases before with
    | cons c before =>
      rw [List.forall_mem_cons] at hbefore
      rw [List.cons_append, Feature.seenIn_cons_space hbefore.1, Feature.seenIn_blanks hbefore.2,
        Feature.seenIn_blanks hafter]
    | nil =>
      -- The annotation stands right behind, so no backslash does.
      have hfalse : f.seenIn escaped (after ++ u) = f.seenIn false (after ++ u) := by
        by_cases hf : f = .wild .letters
        · cases escaped with
          | false => rfl
          | true =>
            have hnone := hescaped hf rfl
            rw [List.nil_append, hread] at hnone
            cases hnone
        · exact Feature.seenIn_escaped hf _ _
      rw [List.nil_append, hfalse, Feature.seenIn_blanks hafter]

end Weight

theorem Shape.eq_of_has {s t : Shape} (h : ∀ f, s.has f = t.has f) : s = t := by
  obtain ⟨letters, number, anything, optional⟩ := s
  obtain ⟨letters', number', anything', optional'⟩ := t
  have hletters : letters = letters' := h (.wild .letters)
  have hnumber : number = number' := h (.wild .number)
  have hanything : anything = anything' := h (.wild .anything)
  have hoptional : optional = optional' := h .optional
  subst hletters hnumber hanything hoptional
  rfl

theorem Feature.seenIn_plain (ht : ∀ c ∈ t, c ∉ Pattern.signs) (u : Text) :
    f.seenIn false (t ++ u) = f.seenIn false u := by
  have hbackslash : '\\' ∉ t := fun hmem => ht _ hmem (by decide)
  have hnone : f.seenIn false t = false := by
    rw [← Bool.not_eq_true]
    intro hseen
    have hsigns : f.sign ∈ Pattern.signs := by
      rcases f with (_ | _ | _) | _ <;> decide
    exact ht _ (mem_of_seenIn hseen) hsigns
  rw [seenIn_append hbackslash, hnone, Bool.false_or]

namespace Entry

/-- The mark of a level has no sign, and it is no annotation. -/
theorem mark_of_readLevel {digits rest : Text} (h : readLevel t = some (digits, rest)) :
    ∃ mark, t = '\x7b' :: (mark ++ rest) ∧ (∀ c ∈ mark, c ∉ Pattern.signs ∧ c ≠ '\x7b') ∧
      Weight.read t = none := by
  obtain ⟨rfl, hdigits⟩ := readLevel_eq_some h
  refine ⟨("inherits=" : Text) ++ (digits ++ ['\x7d']), by simp, ?_, ?_⟩
  · have hname : ∀ d ∈ ("inherits=" : Text), d ∉ Pattern.signs ∧ d ≠ '\x7b' :=
      List.all_iff_forall_prop.mp (by decide)
    intro c hc
    rcases List.mem_append.mp hc with hc | hc
    · exact hname c hc
    rcases List.mem_append.mp hc with hc | hc
    · refine ⟨Pattern.isPlain_of_isDigit (hdigits c hc), ?_⟩
      rintro rfl
      exact absurd (hdigits _ hc) (by decide)
    · rw [List.mem_singleton.mp hc]
      decide
  · cases hread : Weight.read ("\x7binherits=" ++ (digits ++ '\x7d' :: rest)) with
    | none => rfl
    | some found =>
      obtain ⟨w, hw⟩ := Weight.head_of_read hread
      cases hw

theorem remove_mark {mark rest : Text} (hread : Weight.read ('\x7b' :: (mark ++ rest)) = none)
    (hmark : '\x7b' ∉ mark) :
    Weight.remove ('\x7b' :: (mark ++ rest)) = '\x7b' :: mark ++ Weight.remove rest := by
  rw [Weight.remove, edit, editFrom, hread]
  exact congrArg ('\x7b' :: ·) (edit_append_of_not_mem (Weight.opens_read.map _) hmark rest)

/-- Only the annotations of a trigger are kept from the scan; the mark of a level makes no
difference to it. -/
theorem shape_ofText (t : Text) : (ofText t).shape = Shape.scan {} false (Weight.remove t) := by
  cases hlevel : readLevel t with
  | none => simp [ofText, hlevel]
  | some found =>
    obtain ⟨digits, rest⟩ := found
    have hshape : (ofText t).shape = Shape.scan {} false (Weight.remove rest) := by
      simp [ofText, hlevel]
    obtain ⟨mark, rfl, hmark, hread⟩ := mark_of_readLevel hlevel
    rw [hshape, remove_mark hread fun hmem => (hmark _ hmem).2 rfl]
    apply Shape.eq_of_has
    intro f
    rw [Shape.has_scan, Shape.has_scan, Feature.seenIn_plain]
    intro c hc
    rcases List.mem_cons.mp hc with rfl | hc
    · decide
    · exact (hmark c hc).1

end Entry

end Dialogue
