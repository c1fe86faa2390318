import Dialogue.Proofs.Interpolated

/-! Verbatim patterns. They are compared as words, and as expressions they would be compared
character by character, with every white space made one blank as it comes. Both ways are the same. -/
namespace Dialogue

open Text

namespace Text

/-! ### White space as it comes -/

theorem pieces_concat_solid {sep : Char → Bool} {c : Char} (hc : sep c = false) {t : Text}
    {past : List Text} {last : Text} (h : pieces sep t = past ++ [last]) :
    pieces sep (t ++ [c]) = past ++ [last ++ [c]] := by
  induction t generalizing past last with
  | nil =>
    have hsplit : ([] : List Text) ++ [[]] = past ++ [last] := h
    obtain ⟨rfl, hlast⟩ := List.append_inj' hsplit rfl
    rw [← List.singleton_inj.mp hlast, List.nil_append, pieces_solid (by simpa using hc)]
    rfl
  | cons d t ih =>
    rw [pieces] at h
    rw [List.cons_append, pieces]
    split at h
    · rename_i hd
      rw [if_pos hd]
      cases past with
      | nil => exact absurd (List.cons.inj h).2 (pieces_ne_nil sep t)
      | cons first past =>
        obtain ⟨rfl, hrest⟩ := List.cons.inj h
        rw [ih hrest]
        rfl
    · rename_i hd
      rw [if_neg hd]
      obtain ⟨piece, rest, hpieces⟩ := List.exists_cons_of_ne_nil (pieces_ne_nil sep t)
      rw [hpieces] at h
      -- The new character joins the first piece only if there is no other.
      cases past with
      | nil =>
        obtain ⟨rfl, rfl⟩ := List.cons.inj h
        have hover : pieces sep t = [] ++ [piece] := hpieces
        rw [ih hover]
        rfl
      | cons first past =>
        obtain ⟨rfl, rfl⟩ := List.cons.inj h
        have hover : pieces sep t = piece :: past ++ [last] := hpieces
        rw [ih hover]
        rfl

/-- A blank follows only something that is no blank. -/
def settle (t : Text) (c : Char) : Text :=
  if isSpace c then (if t.getLast?.all (· == ' ') then t else t ++ [' ']) else t ++ [c]

/-- What was made of the characters seen so far: the words that are past, each with the blank
behind it, and what there is of the next one. -/
def Settled (seen out : Text) : Prop :=
  ∃ past last, pieces isSpace seen = past ++ [last] ∧
    out = (past.filter (· ≠ [])).flatMap (· ++ [' ']) ++ last

theorem settled_nil : Settled [] [] := ⟨[], [], rfl, rfl⟩

theorem Settled.settle {seen out : Text} (h : Settled seen out) (c : Char) :
    Settled (seen ++ [c]) (out.settle c) := by
  obtain ⟨past, last, hseen, rfl⟩ := h
  have hlast : ∀ d ∈ last, isSpace d = false :=
    solid_of_mem_pieces (hseen ▸ List.mem_append_right past (List.mem_singleton_self last))
  by_cases hc : isSpace c = true
  · refine ⟨past ++ [last], [], by rw [pieces_concat hc, hseen], ?_⟩
    rw [Text.settle, if_pos hc, List.filter_append, List.flatMap_append, List.append_nil]
    rcases List.eq_nil_or_concat' last with rfl | ⟨last, d, rfl⟩
    · -- Nothing has come since the last blank.
      have hblank : ((past.filter (· ≠ [])).flatMap (· ++ [' '])).getLast?.all (· == ' ') = true := by
        rcases List.eq_nil_or_concat' (past.filter (· ≠ [])) with hnil | ⟨words, word, hwords⟩
        · rw [hnil]
          rfl
        · rw [hwords, List.flatMap_append, List.flatMap_singleton, ← List.append_assoc, List.getLast?_concat]
          rfl
      rw [List.append_nil, if_pos hblank]
      simp
    · have hd : d ≠ ' ' := by
        rintro rfl
        exact absurd (hlast ' ' (by simp)) (by decide)
      simp [hd]
  · rw [Bool.not_eq_true] at hc
    refine ⟨past, last ++ [c], pieces_concat_solid hc hseen, ?_⟩
    rw [Text.settle, if_neg (by rw [hc]; decide), List.append_assoc]

theorem settled_foldl (t : Text) : Settled t (t.foldl settle []) := by
  induction t using List.reverseRecOn with
  | nil => exact settled_nil
  | append_singleton t c ih =>
    rw [List.foldl_append]
    exact ih.settle c

theorem intercalate_concat {α : Type} (sep last : List α) (past : List (List α)) :
    sep.intercalate (past ++ [last]) = past.flatMap (· ++ sep) ++ last := by
  induction past with
  | nil => exact List.intercalate_singleton
  | cons first past ih =>
    have hne : past ++ [last] ≠ [] := List.append_ne_nil_of_right_ne_nil past (List.cons_ne_nil last [])
    obtain ⟨next, rest, hrest⟩ := List.exists_cons_of_ne_nil hne
    rw [List.cons_append, hrest, List.intercalate_cons_cons, ← hrest, ih, List.flatMap_cons,
      List.append_assoc, List.append_assoc, List.append_assoc]

theorem trimEnd_trim (t : Text) : trimEnd (trim t) = trim t := by
  rw [trim, trimEnd, trimEnd, List.reverse_reverse, List.dropWhile_idempotent]

/-- Without white space at the end, every blank stands between two words. -/
theorem foldl_settle {t : Text} (h : trimEnd t = t) : t.foldl settle [] = collapse t := by
  rcases List.eq_nil_or_concat' t with rfl | ⟨t, c, rfl⟩
  · rfl
  · have hc : isSpace c = false := by
      rw [← Bool.not_eq_true]
      intro hspace
      rw [trimEnd_append_space t (List.forall_mem_singleton.mpr hspace)] at h
      have hlength := (trimEnd_prefixes t).length_le
      rw [h, List.length_append, List.length_singleton] at hlength
      omega
    obtain ⟨past, last, hpieces, hout⟩ := settled_foldl t
    rw [List.foldl_append, hout, collapse, words, pieces_concat_solid hc hpieces, List.filter_append]
    have hword : [last ++ [c]].filter (· ≠ []) = [last ++ [c]] := by simp
    rw [hword, intercalate_concat, ← List.append_assoc]
    show settle _ c = _
    rw [settle, if_neg (by rw [hc]; decide)]

end Text

namespace Pattern

/-! ### Verbatim patterns as expressions -/

/-- What a character means where no sign stands. -/
def plainItem (c : Char) : Item := if Text.isSpace c then .blank else .literal c

/-- Without signs that open a bracket, nothing can be read that closes one, and the rest are
blanks and literal characters. -/
theorem assemble_verbatim {body : Text} {before is : List Item} (hverbatim : isVerbatim body)
    (hlast : ∀ as, before.getLast? ≠ some (.optional as))
    (h : assemble [] before (tokensFrom 0 body) = .ok is) : is = before ++ body.map plainItem := by
  induction body generalizing before with
  | nil =>
    rw [tokensFrom, assemble] at h
    rw [List.map_nil, List.append_nil, Except.ok.inj h]
  | cons c body ih =>
    rw [isVerbatim_iff, List.forall_mem_cons, ← isVerbatim_iff] at hverbatim
    obtain ⟨hc, hverbatim⟩ := hverbatim
    have hnext : ∀ as, (before ++ [plainItem c]).getLast? ≠ some (.optional as) := by
      intro as
      rw [List.getLast?_concat, plainItem]
      split <;> simp
    rw [List.map_cons, List.append_cons]
    refine ih hverbatim hnext ?_
    by_cases hsign : c ∈ signs
    · have hcases : c = '|' ∨ c = ')' ∨ c = ']' := by
        simp only [signs, List.mem_cons, List.not_mem_nil, or_false] at hsign
        grind
      rcases hcases with rfl | rfl | rfl
      · exact h
      · cases h
      · cases h
    · rw [tokensFrom_cons hsign] at h
      rw [plainItem]
      split at h
      · rw [assemble, addBlank_of_getLast? hlast] at h
        rwa [if_pos ‹_›]
      · rw [assemble] at h
        rwa [if_neg ‹_›]

theorem addTo_plainItem (s : Surroundings) (remember : Bool) (t : Text) (c : Char) :
    Item.addTo s remember (t.map .char) (plainItem c) = (t.settle c).map .char := by
  rw [plainItem, Text.settle]
  split
  · rw [Item.addTo, addSeparator, List.getLast?_map]
    cases t.getLast? with
    | none => rfl
    | some d => by_cases hd : d = ' ' <;> simp [Piece.isBlank, hd]
  · rw [Item.addTo, List.map_append]
    rfl

theorem piecesFrom_plainItem (s : Surroundings) (remember : Bool) (seen t : Text) :
    piecesFrom s remember (seen.map .char) (t.map plainItem) = (t.foldl Text.settle seen).map .char := by
  induction t generalizing seen with
  | nil => rfl
  | cons c t ih => rw [List.map_cons, piecesFrom, addTo_plainItem, ih, List.foldl_cons]

theorem expression_verbatim (s : Surroundings) {body : Text} {is : List Item}
    (hverbatim : isVerbatim body) (hbody : trimEnd body = body) (his : items body = .ok is) :
    expression s is = .literal (collapse body) := by
  have hitems : is = body.map plainItem := assemble_verbatim hverbatim (by simp) his
  have hpieces : piecesFrom s true [] is = (collapse body).map .char := by
    rw [hitems, ← Text.foldl_settle hbody]
    exact piecesFrom_plainItem s true [] body
  rw [expression, hpieces, join_char]

end Pattern

namespace Matcher

variable {pattern : Text} {is : List Item}

/-- A verbatim pattern is compared as words. The expression it is translated to accepts the same
messages, whatever surrounds them, and nothing is captured either way. -/
theorem verbatim_as_translated (s : Surroundings) (hverbatim : Pattern.isVerbatim (Weight.strip pattern))
    (his : Pattern.items (Weight.strip pattern) = .ok is) :
    (∀ strict, ofPattern s strict pattern = .ok (.exactly (collapse (Weight.strip pattern)))) ∧
      ∀ message,
        (exactly (collapse (Weight.strip pattern))).captures message =
          (expression (Pattern.expression s is)).captures message ∧
        ∀ stars, (expression (Pattern.expression s is)).captures message = some stars → stars = [] := by
  have hexpression : Pattern.expression s is = .literal (collapse (Weight.strip pattern)) :=
    Pattern.expression_verbatim s hverbatim (trimEnd_trim _) his
  refine ⟨fun strict => by rw [ofPattern, if_pos hverbatim], fun message => ⟨?_, fun stars hstars => ?_⟩⟩
  · rw [hexpression, captures, captures, Expression.match?_literal]
  · rw [hexpression, captures, Expression.match?_literal] at hstars
    split at hstars
    · exact (Option.some.inj hstars).symm
    · cases hstars

/-- White space of several kinds, around an annotation too, and signs without a meaning. -/
theorem spaced_as_translated :
    Weight.strip " ¿so\t\t|  \x7bweight=3\x7d\u3000ça?\n" = "¿so\t\t| ça?" ∧
    Pattern.isVerbatim "¿so\t\t| ça?" ∧
    Pattern.items "¿so\t\t| ça?" = .ok (("¿so\t\t| ça?" : Text).map Pattern.plainItem) ∧
    ofPattern {} true " ¿so\t\t|  \x7bweight=3\x7d\u3000ça?\n" = .ok (.exactly "¿so | ça?") ∧
    ∀ message, (exactly "¿so | ça?").captures message =
      (expression (Pattern.expression {} (("¿so\t\t| ça?" : Text).map Pattern.plainItem))).captures
        message := by
  have hstrip : Weight.strip " ¿so\t\t|  \x7bweight=3\x7d\u3000ça?\n" = "¿so\t\t| ça?" := by decide +kernel
  have hverbatim : Pattern.isVerbatim "¿so\t\t| ça?" := by decide
  have hitems : Pattern.items "¿so\t\t| ça?" = .ok (("¿so\t\t| ça?" : Text).map Pattern.plainItem) := rfl
  have hcollapse : collapse "¿so\t\t| ça?" = "¿so | ça?" := by decide +kernel
  have hbody : Pattern.isVerbatim (Weight.strip " ¿so\t\t|  \x7bweight=3\x7d\u3000ça?\n") := by rwa [hstrip]
  have h := verbatim_as_translated {} hbody (by rwa [hstrip])
  rw [hstrip, hcollapse] at h
  exact ⟨hstrip, hverbatim, hitems, h.1 true, fun message => (h.2 message).1⟩

end Matcher

end Dialogue
