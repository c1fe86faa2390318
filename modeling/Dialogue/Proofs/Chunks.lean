import Dialogue.Proofs.Interpolated
import Dialogue.Proofs.Openers

/-! Patterns that are words and wildcards in a row. -/
namespace Dialogue

open Text

inductive Chunk where
  | word (w : Text)
  | wild (w : Wildcard)
  deriving DecidableEq, Repr

/-- A sign of such a pattern: a character that stands for itself, or a wildcard. -/
inductive Mark where
  | char (c : Char)
  | wild (w : Wildcard)
  deriving DecidableEq, Repr

theorem Matcher.captures_exactly {t message : Text} {stars : List Text} :
    (Matcher.exactly t).captures message = some stars ↔ stars = [] ∧ t = message := by
  rw [Matcher.captures]
  split
  · rename_i hmessage
    rw [Option.some_inj, eq_comm, and_iff_left hmessage]
  · rename_i hmessage
    exact iff_of_false (Option.some_ne_none _).symm fun h => hmessage h.2

namespace Matcher

/-- What becomes of a text that means an expression. -/
def ofExpression (engine : Engine) (strict : Bool) (t : Text) (e : Expression) : Except Refusal Matcher :=
  match engine.refusal? e with
  | none => .ok (.expression e)
  | some l => if strict then .error (.limit l) else .ok (.exactly t)

theorem ofExpression_of_refused {engine : Engine} {strict : Bool} {t : Text} {e : Expression} {l : Limit}
    (h : engine.refusal? e = some l) :
    ofExpression engine strict t e = if strict then .error (.limit l) else .ok (.exactly t) := by
  rw [ofExpression, h]

/-- A pattern that is neither verbatim nor the star alone is matched as what it means. -/
theorem ofPattern_of_items {t : Text} {is : List Item} (s : Surroundings) (strict : Bool)
    (hstrip : Weight.strip t = t) (hverbatim : ¬ Pattern.isVerbatim t = true) (hline : trim t ≠ ['*'])
    (his : Pattern.items t = .ok is) :
    ofPattern s strict t = ofExpression s.engine strict t (Pattern.expression s is) := by
  have hsigns : ofSigns s t = match s.engine.refusal? (Pattern.expression s is) with
      | none => .ok (.expression (Pattern.expression s is))
      | some l => .error (.limit l) := by
    rw [ofSigns, his]
    cases hrefusal : s.engine.refusal? (Pattern.expression s is) <;>
      simp [Except.mapError, bind, Except.bind, hrefusal]
  rw [ofPattern, hstrip, if_neg hverbatim, if_neg hline, hsigns, ofExpression]
  cases s.engine.refusal? (Pattern.expression s is) <;> rfl

/-- Where a text is compared as a whole or else means an expression, what holds of both matchers holds of
the one that is made of it, unless the engine refuses the expression. -/
theorem taken_or_refused {s : Surroundings} {t : Text} {whole : Bool} {e : Expression}
    {P : Matcher → Prop} (h : ∀ strict, ofPattern s strict t =
      if whole then .ok (.exactly t) else ofExpression s.engine strict t e)
    (hexactly : whole = true → P (.exactly t)) (hexpression : whole = false → P (.expression e)) :
    (whole = true ∨ s.engine.refusal? e = none →
      ∃ m, (∀ strict, ofPattern s strict t = .ok m) ∧ P m) ∧
    (¬ (whole = true ∨ s.engine.refusal? e = none) → ∃ l, s.engine.refusal? e = some l ∧
      ofPattern s true t = .error (.limit l) ∧ ofPattern s false t = .ok (.exactly t)) := by
  cases whole with
  | true => exact ⟨fun _ => ⟨_, h, hexactly rfl⟩, fun hrefused => absurd (.inl rfl) hrefused⟩
  | false =>
    simp only [if_neg Bool.false_ne_true, ofExpression] at h
    cases hrefusal : s.engine.refusal? e with
    | none =>
      rw [hrefusal] at h
      exact ⟨fun _ => ⟨_, h, hexpression rfl⟩, fun hrefused => absurd (.inr rfl) hrefused⟩
    | some l =>
      rw [hrefusal] at h
      exact ⟨fun htaken => by simp at htaken, fun _ => ⟨l, rfl, h true, h false⟩⟩

end Matcher

namespace Mark

def sign : Mark → Char
  | char c => c
  | wild w => w.sign

def token : Mark → Token
  | char c => if isSpace c then .blank else .literal c
  | wild w => .wild w

def item : Mark → Item
  | char c => if isSpace c then .blank else .literal c
  | wild w => .wild w

def piece : Mark → Pattern.Piece
  | char c => .char c
  | wild w => .part (.group true (.wild w))

/-- The mark is read as what it is. -/
def IsPlain : Mark → Prop
  | char c => c ∉ Pattern.signs
  | wild _ => True

end Mark

namespace Chunk

def text : Chunk → Text
  | word w => w
  | wild w => [w.sign]

/-- Words are made of letters and digits. -/
def IsPlain : Chunk → Prop
  | word w => w ≠ [] ∧ ∀ c ∈ w, isAlphanumeric c = true
  | wild _ => True

instance : (c : Chunk) → Decidable c.IsPlain
  | word _ => decidable_of_iff _ (and_congr_right fun _ => List.all_eq_true)
  | wild _ => isTrue trivial

def marks : Chunk → List Mark
  | word w => w.map .char
  | wild w => [.wild w]

def isWord : Chunk → Bool
  | word _ => true
  | wild _ => false

/-- Chunks with single blanks between them. -/
def written (cs : List Chunk) : Text := [' '].intercalate (cs.map text)

def marksOf (cs : List Chunk) : List Mark := [.char ' '].intercalate (cs.map marks)

def behind (cs : List Chunk) : List Mark := cs.flatMap fun c => .char ' ' :: c.marks

/-- What chunks in a row mean. -/
def expressionOf (cs : List Chunk) : Expression := Pattern.join ((marksOf cs).map Mark.piece)

/-! ### Letters and digits -/

/-- A class of characters without signs and without white space. -/
theorem plain_of_class {q : Char → Bool} (hsigns : ('\x7b' :: Pattern.signs).all (!q ·) = true)
    (hspaces : ∀ n ∈ spaceRanges.flatMap fun r => List.range' r.1 (r.2 + 1 - r.1),
      q (Char.ofNat n) = false) {c : Char} (h : q c = true) :
    c ∉ Pattern.signs ∧ isSpace c = false ∧ c ≠ '\x7b' := by
  simp only [List.all_eq_true, Bool.not_eq_true'] at hsigns
  refine ⟨fun hmem => ?_, ?_, ?_⟩
  · rw [hsigns c (List.mem_cons_of_mem _ hmem)] at h
    cases h
  · rw [← Bool.not_eq_true]
    intro hspace
    obtain ⟨r, hr, hfirst, hlast⟩ := Ranges.exists_of_contains hspace
    have hn : c.toNat ∈ spaceRanges.flatMap fun r => List.range' r.1 (r.2 + 1 - r.1) := by
      refine List.mem_flatMap.mpr ⟨r, hr, ?_⟩
      rw [List.mem_range'_1]
      omega
    have hnot := hspaces _ hn
    rw [Char.ofNat_toNat, h] at hnot
    cases hnot
  · rintro rfl
    rw [hsigns _ List.mem_cons_self] at h
    cases h

theorem plain_of_isAlphanumeric {c : Char} (h : isAlphanumeric c = true) :
    c ∉ Pattern.signs ∧ isSpace c = false ∧ c ≠ '\x7b' :=
  plain_of_class (by decide) (by decide +kernel) h

section Reading

variable {c : Chunk} {cs : List Chunk}

theorem solid_sign (w : Wildcard) : isSpace w.sign = false ∧ w.sign ≠ '\x7b' := by
  cases w <;> decide

theorem isName_text (h : c.IsPlain) : IsName c.text := by
  cases c with
  | word w => exact ⟨h.1, fun d hd => (plain_of_isAlphanumeric (h.2 d hd)).2.1⟩
  | wild w => exact ⟨List.cons_ne_nil _ _, List.forall_mem_singleton.mpr (solid_sign w).1⟩

theorem map_sign_marks (c : Chunk) : c.marks.map Mark.sign = c.text := by
  cases c with
  | word w =>
    rw [marks, List.map_map]
    exact List.map_id' w
  | wild w => rfl

theorem map_sign_marksOf (cs : List Chunk) : (marksOf cs).map Mark.sign = written cs := by
  rw [marksOf, map_intercalate, List.map_map, written]
  congr 1
  exact List.map_congr_left fun c _ => map_sign_marks c

theorem marksOf_cons (c : Chunk) (cs : List Chunk) : marksOf (c :: cs) = c.marks ++ behind cs := by
  rw [marksOf, List.map_cons, intercalate_cons, List.flatMap_map]
  rfl

theorem behind_cons (c : Chunk) (cs : List Chunk) :
    behind (c :: cs) = .char ' ' :: marksOf (c :: cs) := by
  rw [marksOf_cons]
  exact List.flatMap_cons

/-! ### Items -/

theorem tokensFrom_marks {ms : List Mark} (h : ∀ m ∈ ms, m.IsPlain) :
    Pattern.tokensFrom 0 (ms.map Mark.sign) = ms.map Mark.token := by
  induction ms with
  | nil => rfl
  | cons m ms ih =>
    obtain ⟨hm, hms⟩ := List.forall_mem_cons.mp h
    rw [List.map_cons, List.map_cons, ← ih hms]
    cases m with
    | char c => exact Pattern.tokensFrom_cons hm _
    | wild w => cases w <;> rfl

theorem isPlain_marks (h : c.IsPlain) : ∀ m ∈ c.marks, m.IsPlain := by
  cases c with
  | word w =>
    intro m hm
    obtain ⟨d, hd, rfl⟩ := List.mem_map.mp hm
    exact (plain_of_isAlphanumeric (h.2 d hd)).1
  | wild w => exact List.forall_mem_singleton.mpr trivial

theorem isPlain_marksOf (h : ∀ c ∈ cs, c.IsPlain) : ∀ m ∈ marksOf cs, m.IsPlain := by
  intro m hm
  rcases mem_of_mem_intercalate hm with hblank | ⟨ms, hms, hm⟩
  · rw [List.mem_singleton.mp hblank]
    exact Pattern.isPlain_of_isSpace (by decide)
  · obtain ⟨c, hc, rfl⟩ := List.mem_map.mp hms
    exact isPlain_marks (h c hc) m hm

theorem items_written (h : ∀ c ∈ cs, c.IsPlain) :
    Pattern.items (written cs) = .ok ((marksOf cs).map Mark.item) := by
  have hitem : ∀ m ∈ marksOf cs, Pattern.item? m.token = some m.item := by
    intro m _
    cases m with
    | char c =>
      rw [Mark.token, Mark.item]
      split <;> rfl
    | wild w => rfl
  rw [Pattern.items, ← map_sign_marksOf, tokensFrom_marks (isPlain_marksOf h)]
  exact Pattern.assemble_map hitem [] fun _ => (Option.some_ne_none _).symm

/-! ### Pieces -/

variable {s : Surroundings} {remember : Bool} {ps : List Pattern.Piece}

theorem piecesFrom_append (s : Surroundings) (remember : Bool) (ps : List Pattern.Piece)
    (is js : List Item) :
    Pattern.piecesFrom s remember ps (is ++ js) =
      Pattern.piecesFrom s remember (Pattern.piecesFrom s remember ps is) js := by
  induction is generalizing ps with
  | nil => rfl
  | cons i is ih => exact ih _

/-- The last piece is one behind which a blank is written. -/
def Solid (ps : List Pattern.Piece) : Prop := ∃ p, ps.getLast? = some p ∧ p.isBlank = false

theorem solid_concat (ps : List Pattern.Piece) {p : Pattern.Piece} (h : p.isBlank = false) :
    Solid (ps ++ [p]) := ⟨p, List.getLast?_concat, h⟩

theorem piecesFrom_word (s : Surroundings) {w : Text} (h : ∀ c ∈ w, isSpace c = false) :
    Pattern.piecesFrom s true ps ((w.map Mark.char).map Mark.item) =
      ps ++ (w.map Mark.char).map Mark.piece := by
  induction w generalizing ps with
  | nil => exact (List.append_nil ps).symm
  | cons c w ih =>
    obtain ⟨hc, hw⟩ := List.forall_mem_cons.mp h
    have hitem : (Mark.char c).item = .literal c := if_neg (by rw [hc]; exact Bool.false_ne_true)
    rw [List.map_cons, List.map_cons, hitem, Pattern.piecesFrom, ih hw]
    exact List.append_assoc ps [.char c] _

theorem piecesFrom_marks (s : Surroundings) (h : c.IsPlain) :
    Pattern.piecesFrom s true ps (c.marks.map Mark.item) = ps ++ c.marks.map Mark.piece := by
  cases c with
  | word w => exact piecesFrom_word s fun d hd => (plain_of_isAlphanumeric (h.2 d hd)).2.1
  | wild w => rfl

theorem solid_marks (h : c.IsPlain) : Solid (ps ++ c.marks.map Mark.piece) := by
  cases c with
  | word w =>
    obtain ⟨hne, hw⟩ := h
    rcases List.eq_nil_or_concat w with rfl | ⟨u, d, rfl⟩
    · exact absurd rfl hne
    · have hd := (plain_of_isAlphanumeric (hw d (by simp))).2.1
      rw [marks, List.concat_eq_append, List.map_append, List.map_append, ← List.append_assoc]
      apply solid_concat
      rw [Mark.piece, Pattern.Piece.isBlank, beq_eq_false_iff_ne]
      rintro rfl
      cases hd
  | wild w => exact solid_concat ps rfl

theorem piecesFrom_behind (s : Surroundings) (h : ∀ c ∈ cs, c.IsPlain) (hps : Solid ps) :
    Pattern.piecesFrom s true ps ((behind cs).map Mark.item) = ps ++ (behind cs).map Mark.piece := by
  induction cs generalizing ps with
  | nil => exact (List.append_nil ps).symm
  | cons c cs ih =>
    obtain ⟨hc, hcs⟩ := List.forall_mem_cons.mp h
    obtain ⟨p, hlast, hblank⟩ := hps
    have hseparator : Pattern.addSeparator ps = ps ++ [.char ' '] := by
      rw [Pattern.addSeparator, hlast]
      simp [hblank]
    rw [behind_cons, marksOf_cons, List.map_cons, List.map_append, List.map_cons, List.map_append]
    show Pattern.piecesFrom s true (Pattern.addSeparator ps) _ = _
    rw [hseparator, piecesFrom_append, piecesFrom_marks s hc, ih hcs (solid_marks hc)]
    simp only [List.append_assoc, List.singleton_append]
    rfl

theorem expression_marks (s : Surroundings) (h : ∀ c ∈ cs, c.IsPlain) :
    Pattern.expression s ((marksOf cs).map Mark.item) = expressionOf cs := by
  rw [Pattern.expression, expressionOf]
  congr 1
  cases cs with
  | nil => rfl
  | cons c cs =>
    obtain ⟨hc, hcs⟩ := List.forall_mem_cons.mp h
    have hmarks := @piecesFrom_marks c [] s hc
    have hbehind := @piecesFrom_behind cs ([] ++ c.marks.map Mark.piece) s hcs (solid_marks hc)
    rw [marksOf_cons, List.map_append, piecesFrom_append, hmarks, hbehind, List.map_append]
    rfl

end Reading

/-! ### Matchers -/

section Matching

variable {s : Surroundings} {cs : List Chunk} {strict : Bool}

theorem mem_written {d : Char} (h : d ∈ written cs) : d = ' ' ∨ ∃ c ∈ cs, d ∈ c.text := by
  rcases mem_of_mem_intercalate h with hblank | ⟨t, ht, hd⟩
  · exact .inl (List.mem_singleton.mp hblank)
  · obtain ⟨c, hc, rfl⟩ := List.mem_map.mp ht
    exact .inr ⟨c, hc, hd⟩

theorem text_subset_written {c : Chunk} (h : c ∈ cs) : ∀ d ∈ c.text, d ∈ written cs :=
  fun _ hd => mem_intercalate (List.mem_map_of_mem h) hd

theorem isVerbatim_written (h : ∀ c ∈ cs, c.IsPlain) :
    Pattern.isVerbatim (written cs) = cs.all isWord := by
  rw [Bool.eq_iff_iff, Pattern.isVerbatim_iff, List.all_eq_true]
  constructor
  · intro hverbatim c hc
    cases c with
    | word w => rfl
    | wild w =>
      have hsign := hverbatim w.sign (text_subset_written hc _ List.mem_cons_self)
      exact absurd (by cases w <;> decide) hsign
  · intro hwords d hd
    rcases mem_written hd with rfl | ⟨c, hc, hd⟩
    · decide
    · cases c with
      | word w =>
        intro hsign
        have hplain := (plain_of_isAlphanumeric ((h _ hc).2 d hd)).1
        have hsigns : "*#_([<@\\".toList.all (Pattern.signs.contains ·) = true := by decide
        exact hplain (List.contains_iff_mem.mp (List.all_eq_true.mp hsigns d hsign))
      | wild w => cases hwords _ hc

theorem forall_isName (h : ∀ c ∈ cs, c.IsPlain) : ∀ t ∈ cs.map text, IsName t := by
  intro t ht
  obtain ⟨c, hc, rfl⟩ := List.mem_map.mp ht
  exact isName_text (h c hc)

theorem collapse_written (h : ∀ c ∈ cs, c.IsPlain) : collapse (written cs) = written cs := by
  rw [collapse, written, words_intercalate (forall_isName h)]

theorem trim_written (h : ∀ c ∈ cs, c.IsPlain) : trim (written cs) = written cs :=
  trim_of_collapse (collapse_written h)

theorem strip_written (h : ∀ c ∈ cs, c.IsPlain) : Weight.strip (written cs) = written cs := by
  have hcurly : '\x7b' ∉ written cs := by
    intro hmem
    rcases mem_written hmem with hblank | ⟨c, hc, hmem⟩
    · cases hblank
    · cases c with
      | word w => exact (plain_of_isAlphanumeric ((h _ hc).2 _ hmem)).2.2 rfl
      | wild w => exact (solid_sign w).2 (List.mem_singleton.mp hmem).symm
  rw [Weight.strip_of_none (Weight.first?_of_not_mem hcurly), trim_written h]

/-- Only the star alone is written as a star. -/
theorem eq_star_of_written (h : ∀ c ∈ cs, c.IsPlain) (hstar : written cs = ['*']) :
    cs = [.wild .anything] := by
  have hwords := words_intercalate (forall_isName h)
  rw [← written, hstar] at hwords
  have htexts : [['*']] = cs.map text := hwords
  cases cs with
  | nil => cases htexts
  | cons c cs =>
    rw [List.map_cons, List.cons.injEq, eq_comm, eq_comm (a := []), List.map_eq_nil_iff] at htexts
    obtain ⟨htext, rfl⟩ := htexts
    cases c with
    | word w =>
      have hword := (List.forall_mem_singleton.mp h).2 '*' (by rw [text] at htext; rw [htext]; decide)
      cases hword
    | wild w =>
      cases w with
      | anything => rfl
      | number | letters => cases htext

/-- Words alone are compared as a whole, and chunks in a row matched as what they mean. -/
theorem ofPattern_written (s : Surroundings) (strict : Bool) (h : ∀ c ∈ cs, c.IsPlain)
    (hstar : cs ≠ [.wild .anything]) : Matcher.ofPattern s strict (written cs) =
      if cs.all isWord then .ok (.exactly (written cs))
      else Matcher.ofExpression s.engine strict (written cs) (expressionOf cs) := by
  have hline : trim (written cs) ≠ ['*'] := by
    rw [trim_written h]
    exact fun heq => hstar (eq_star_of_written h heq)
  by_cases hwords : cs.all isWord = true
  · rw [Matcher.ofPattern, strip_written h, isVerbatim_written h, if_pos hwords, if_pos hwords,
      collapse_written h]
  · rw [Matcher.ofPattern_of_items s strict (strip_written h) (by rwa [isVerbatim_written h]) hline
      (items_written h), expression_marks s h, if_neg hwords]

theorem openers_written (h : ∀ c ∈ cs, c.IsPlain) : Pattern.openers (written cs) =
    cs.flatMap fun c => if c.isWord then [] else c.text := by
  have hchar : ∀ d, Pattern.opener (Mark.char d).token = [] := by
    intro d
    rw [Mark.token]
    split <;> rfl
  have htokens : ∀ ms : List Mark, Pattern.tokenOpeners 0 (ms.map Mark.token) =
      ms.flatMap fun m => Pattern.opener m.token := by
    intro ms
    induction ms with
    | nil => rfl
    | cons m ms ih =>
      have hsquares : Pattern.squaresAfter 0 m.token = 0 := by
        cases m with
        | char d => rw [Mark.token]; split <;> rfl
        | wild w => rfl
      rw [List.map_cons, Pattern.tokenOpeners, hsquares, ih, if_pos rfl, List.flatMap_cons]
  have hmarks : ∀ c : Chunk, (c.marks.flatMap fun m => Pattern.opener m.token) =
      if c.isWord then [] else c.text := by
    intro c
    cases c with
    | word w => simp [marks, isWord, List.flatMap_map, hchar]
    | wild w => rfl
  rw [Pattern.openers, Pattern.openersFrom_eq, ← map_sign_marksOf,
    tokensFrom_marks (isPlain_marksOf h), htokens, marksOf]
  cases cs with
  | nil => rfl
  | cons c cs =>
    rw [List.map_cons, intercalate_cons, List.flatMap_append, hmarks, List.flatMap_assoc,
      List.flatMap_map, List.flatMap_cons]
    congr 1
    refine List.flatMap_congr fun c _ => ?_
    rw [List.flatMap_append, hmarks, List.flatMap_singleton, hchar, List.nil_append]

end Matching

end Chunk

/-! ### Many parts in a row -/

namespace Pattern

/-- About as many bytes as the steps take that match the pieces of a sequence. -/
def sizeOf : List Piece → Nat
  | [] => 0
  | .char c :: ps => Expression.stepSize * byteSize [c] + sizeOf ps
  | .part e :: ps => e.size + sizeOf ps

theorem byteSize_cons (c : Char) (t : Text) : byteSize (c :: t) = byteSize [c] + byteSize t := by
  rw [byteSize, byteSize, byteSize, String.ofList_cons, String.utf8ByteSize_append]
  rfl

theorem size_join (ps : List Piece) : (join ps).size = sizeOf ps := by
  fun_induction join ps with
  | case1 | case2 => rfl
  | case3 e ps hps ih => rw [Expression.size, ih, sizeOf]
  | case4 c ps t hjoin ih =>
    rw [hjoin, Expression.size] at ih
    rw [Expression.size, sizeOf, ← ih, byteSize_cons, Nat.mul_add]
  | case5 c ps t e hjoin ih =>
    rw [hjoin, Expression.size, Expression.size] at ih
    rw [Expression.size, Expression.size, sizeOf, ← ih, byteSize_cons, Nat.mul_add, Nat.add_assoc]
  | case6 c ps _ _ ih => rw [Expression.size, Expression.size, sizeOf, ← ih]

theorem sizeOf_le_of_sublist {ps qs : List Piece} (h : ps.Sublist qs) : sizeOf ps ≤ sizeOf qs := by
  induction h with
  | slnil => exact Nat.le_refl _
  | cons p _ ih => cases p <;> exact ih.trans (Nat.le_add_left _ _)
  | cons_cons p _ ih => cases p <;> exact Nat.add_le_add_left ih _

theorem sizeOf_replicate (e : Expression) (n : Nat) :
    sizeOf (List.replicate n (.part e)) = n * e.size := by
  induction n with
  | zero => exact (Nat.zero_mul _).symm
  | succ n ih => rw [List.replicate_succ, sizeOf, ih, Nat.succ_mul, Nat.add_comm]

/-- A part that is there so often that the standard engine refuses the whole. -/
theorem refused_of_replicate {n : Nat} {e : Expression} {ps : List Piece}
    (h : (List.replicate n (.part e)).Sublist ps) (hsize : sizeLimit < n * e.size) :
    ∃ l, Engine.standard.refusal? (join ps) = some l := by
  refine Engine.standard_refuses (hsize.trans_le ?_)
  rw [size_join, ← sizeOf_replicate]
  exact sizeOf_le_of_sublist h

end Pattern

namespace Chunk

theorem replicate_sublist_marksOf (w : Wildcard) (n : Nat) :
    (List.replicate n (Mark.wild w)).Sublist (marksOf (List.replicate n (.wild w))) := by
  induction n with
  | zero => exact List.nil_sublist _
  | succ n ih =>
    rw [List.replicate_succ, List.replicate_succ, marksOf_cons]
    refine List.Sublist.cons_cons _ ?_
    cases n with
    | zero => exact List.nil_sublist _
    | succ n =>
      rw [List.replicate_succ (n := n) (a := Chunk.wild w), behind_cons, ← List.replicate_succ]
      exact ih.cons _

/-- A thousand wildcards take too many steps. -/
def underscores : List Chunk := List.replicate 1000 (.wild .letters)

theorem isPlain_underscores : ∀ c ∈ underscores, c.IsPlain := by
  intro c hc
  rw [List.eq_of_mem_replicate hc]
  trivial

theorem refused_underscores : ∃ l, Engine.standard.refusal? (expressionOf underscores) = some l := by
  have hmarks := (replicate_sublist_marksOf .letters 1000).map Mark.piece
  rw [List.map_replicate] at hmarks
  exact Pattern.refused_of_replicate hmarks (by decide)

/-- So many are refused, or stand for their own text. -/
theorem ofPattern_underscores : ∃ l, ∀ strict,
    Matcher.ofPattern {} strict (written underscores) =
      if strict then .error (.limit l) else .ok (.exactly (written underscores)) := by
  have hcons : underscores = .wild .letters :: List.replicate 999 (.wild .letters) := List.replicate_succ
  have hwords : ¬ underscores.all isWord = true := by
    rw [hcons, List.all_cons]
    exact Bool.false_ne_true
  have hstar : underscores ≠ [.wild .anything] := by
    rw [hcons]
    exact fun h => nomatch (List.cons.inj h).1
  obtain ⟨l, hrefusal⟩ := refused_underscores
  refine ⟨l, fun strict => ?_⟩
  rw [ofPattern_written {} strict isPlain_underscores hstar, if_neg hwords]
  exact Matcher.ofExpression_of_refused hrefusal

end Chunk

end Dialogue
