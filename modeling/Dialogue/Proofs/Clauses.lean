import Dialogue.Proofs.Chunks
import Dialogue.Proofs.Neighbors
import Dialogue.Proofs.Verbatim

/-! Patterns that are words and optional parts in a row, each part with phrases to choose from. -/
namespace Dialogue

open Text Substitution

inductive Clause where
  | word (w : Text)
  /-- In square brackets: one of the phrases, or nothing. -/
  | optional (phrases : List (List Text))
  deriving DecidableEq, Repr

/-- A word that is no more than a word in a pattern too, where the underscore is a wildcard. -/
structure IsPlainWord (w : Text) : Prop extends Solid w where
  plain : '_' ∉ w

theorem isPlainWord_iff {w : Text} : IsPlainWord w ↔ w ≠ [] ∧ w.all isWordChar = true ∧ '_' ∉ w := by
  rw [List.all_eq_true]
  exact ⟨fun h => ⟨h.ne, h.word, h.plain⟩, fun h => ⟨⟨h.1, h.2.1⟩, h.2.2⟩⟩

instance (w : Text) : Decidable (IsPlainWord w) := decidable_of_iff _ isPlainWord_iff.symm

/-- Words with single blanks between them. -/
structure IsPhrase (ws : List Text) : Prop where
  ne : ws ≠ []
  words : ∀ w ∈ ws, IsPlainWord w

instance (ws : List Text) : Decidable (IsPhrase ws) :=
  decidable_of_iff (ws ≠ [] ∧ ∀ w ∈ ws, IsPlainWord w) ⟨fun h => ⟨h.1, h.2⟩, fun h => ⟨h.ne, h.words⟩⟩

namespace Clause

def text : Clause → Text
  | word w => w
  | optional phrases => '[' :: (['|'].intercalate (phrases.map sentence) ++ [']'])

/-- Clauses with single blanks between them. -/
def written (cs : List Clause) : Text := [' '].intercalate (cs.map text)

def IsPlain : Clause → Prop
  | word w => IsPlainWord w
  | optional phrases => phrases ≠ [] ∧ ∀ ws ∈ phrases, IsPhrase ws

instance : (c : Clause) → Decidable c.IsPlain
  | word w => inferInstanceAs (Decidable (IsPlainWord w))
  | optional phrases => inferInstanceAs (Decidable (phrases ≠ [] ∧ ∀ ws ∈ phrases, IsPhrase ws))

def isWord : Clause → Bool
  | word _ => true
  | optional _ => false

def phraseItems (ws : List Text) : List Item := (sentence ws).map Pattern.plainItem

def items : Clause → List Item
  | word w => w.map .literal
  | optional phrases => [.optional (phrases.map phraseItems)]

/-- A blank stands behind a word; an optional part takes it in. -/
def itemsAfter : (afterWord : Bool) → List Clause → List Item
  | _, [] => []
  | afterWord, c :: cs => (if afterWord then [.blank] else []) ++ (c.items ++ itemsAfter c.isWord cs)

def phraseExpression (ws : List Text) : Expression := .literal (sentence ws)

def pieces : Clause → List Pattern.Piece
  | word w => w.map .char
  | optional phrases => [.part (Pattern.optionalOf (phrases.map phraseExpression))]

/-- Blanks stand between words only. -/
def separator (afterWord : Bool) (c : Clause) : List Pattern.Piece :=
  if afterWord && c.isWord then [.char ' '] else []

def piecesAfter : (afterWord : Bool) → List Clause → List Pattern.Piece
  | _, [] => []
  | afterWord, c :: cs => separator afterWord c ++ (c.pieces ++ piecesAfter c.isWord cs)

/-- What clauses in a row mean. -/
def expressionOf (cs : List Clause) : Expression := Pattern.join (piecesAfter false cs)

/-! ### Words -/

section Words

variable {w : Text} {ws : List Text} {c : Char}

theorem plain_of_isWordChar (h : isWordChar c = true) (hne : c ≠ '_') :
    c ∉ Pattern.signs ∧ isSpace c = false ∧ c ≠ '\x7b' := by
  have hclass : (isWordChar c && c != '_') = true := by simp [h, hne]
  exact Chunk.plain_of_class (q := fun c => isWordChar c && c != '_') (by decide)
    (by decide +kernel) hclass

theorem plain_of_mem_word (h : IsPlainWord w) (hc : c ∈ w) :
    c ∉ Pattern.signs ∧ isSpace c = false ∧ c ≠ '\x7b' :=
  plain_of_isWordChar (h.word c hc) fun heq => h.plain (heq ▸ hc)

theorem isName_of_word (h : IsPlainWord w) : IsName w := ⟨h.ne, fun _ hc => (plain_of_mem_word h hc).2.1⟩

theorem plain_of_mem_sentence (h : ∀ w ∈ ws, IsPlainWord w) (hc : c ∈ sentence ws) :
    c ∉ Pattern.signs ∧ c ≠ '\x7b' := by
  rcases mem_of_mem_intercalate hc with hblank | ⟨w, hw, hc⟩
  · rw [List.mem_singleton.mp hblank]
    decide
  · obtain ⟨hsigns, -, hcurly⟩ := plain_of_mem_word (h w hw) hc
    exact ⟨hsigns, hcurly⟩

theorem collapse_sentence (h : ∀ w ∈ ws, IsPlainWord w) : collapse (sentence ws) = sentence ws := by
  rw [collapse, sentence, words_intercalate fun w hw => isName_of_word (h w hw)]

theorem trim_sentence (h : ∀ w ∈ ws, IsPlainWord w) : trim (sentence ws) = sentence ws :=
  trim_of_collapse (collapse_sentence h)

theorem sentence_ne_nil (h : IsPhrase ws) : sentence ws ≠ [] :=
  (neat_intercalate h.ne fun w hw => isName_of_word (h.words w hw)).ne

end Words

/-! ### Items -/

/-- How a sign of such a pattern is read. -/
def token : Char → Token
  | '[' => .opening .square
  | ']' => .closing .square
  | '|' => .bar
  | c => if isSpace c then .blank else .literal c

section Reading

variable {c : Clause} {cs : List Clause} {phrases : List (List Text)} {outer : List Pattern.Open}
  {before : List Item} {rest : List Token}

theorem token_of_plain {d : Char} (h : d ∉ Pattern.signs) :
    token d = if isSpace d then .blank else .literal d := by
  rw [token]
  all_goals
    rintro rfl
    exact h (by decide)

theorem item?_token {d : Char} (h : d ∉ Pattern.signs) :
    Pattern.item? (token d) = some (Pattern.plainItem d) ∧ token d ≠ .bar := by
  rw [token_of_plain h, Pattern.plainItem]
  split <;> exact ⟨rfl, Token.noConfusion⟩

theorem tokensFrom_map {t : Text} (h : ∀ d ∈ t, d ∉ Pattern.signs ∨ d ∈ ['[', ']', '|']) :
    Pattern.tokensFrom 0 t = t.map token := by
  induction t with
  | nil => rfl
  | cons d t ih =>
    obtain ⟨hd, ht⟩ := List.forall_mem_cons.mp h
    rw [List.map_cons, ← ih ht]
    rcases hd with hplain | hbracket
    · rw [Pattern.tokensFrom_cons hplain, token_of_plain hplain]
    · have hcases : d = '[' ∨ d = ']' ∨ d = '|' := by simpa using hbracket
      rcases hcases with rfl | rfl | rfl <;> rfl

theorem assemble_plain {t : Text} (h : ∀ d ∈ t, d ∉ Pattern.signs)
    (hlast : ∀ as, before.getLast? = some (.optional as) → (t.map token).head? ≠ some .blank) :
    Pattern.assemble outer before (t.map token ++ rest) =
      Pattern.assemble outer (before ++ t.map Pattern.plainItem) rest :=
  Pattern.assemble_append (fun d hd => (item?_token (h d hd)).1)
    (.inr fun d hd => (item?_token (h d hd)).2) hlast rest

theorem assemble_phrases (hne : phrases ≠ []) (h : ∀ ws ∈ phrases, IsPhrase ws)
    (earlier : List (List Item)) :
    Pattern.assemble ({ before, bracket := .square, alternatives := earlier } :: outer) []
        ((['|'].intercalate (phrases.map sentence)).map token ++ .closing .square :: rest) =
      Pattern.assemble outer (before ++ [.optional (earlier ++ phrases.map phraseItems)]) rest := by
  induction phrases generalizing earlier with
  | nil => exact absurd rfl hne
  | cons ws phrases ih =>
    obtain ⟨hws, hphrases⟩ := List.forall_mem_cons.mp h
    have hsentence : ∀ d ∈ sentence ws, d ∉ Pattern.signs := fun d hd =>
      (plain_of_mem_sentence hws.words hd).1
    have hfirst : ∀ as, ([] : List Item).getLast? = some (.optional as) →
        ((sentence ws).map token).head? ≠ some .blank := fun _ h => nomatch h
    cases phrases with
    | nil =>
      rw [List.map_singleton, List.intercalate_singleton, assemble_plain hsentence hfirst,
        Pattern.assemble, if_pos rfl]
      rfl
    | cons next phrases =>
      rw [List.map_cons, List.map_cons, List.intercalate_cons_cons, ← List.map_cons, List.append_assoc,
        List.map_append, List.append_assoc, assemble_plain hsentence hfirst]
      have hnext := ih (List.cons_ne_nil _ _) hphrases (earlier ++ [phraseItems ws])
      rw [List.append_assoc] at hnext
      exact hnext

theorem assemble_clause (h : c.IsPlain) :
    Pattern.assemble outer before (c.text.map token ++ rest) =
      Pattern.assemble outer (before ++ c.items) rest := by
  cases c with
  | word w =>
    have hitems : w.map Pattern.plainItem = w.map .literal := List.map_congr_left fun d hd =>
      if_neg (by rw [(plain_of_mem_word h hd).2.1]; exact Bool.false_ne_true)
    have hfirst : (w.map token).head? ≠ some .blank := by
      obtain ⟨d, v, rfl⟩ := List.exists_cons_of_ne_nil h.ne
      obtain ⟨hsigns, hsolid, -⟩ := plain_of_mem_word h List.mem_cons_self
      rw [List.map_cons, token_of_plain hsigns, hsolid]
      simp
    rw [text, assemble_plain (fun d hd => (plain_of_mem_word h hd).1) fun _ _ => hfirst, hitems]
    rfl
  | optional phrases =>
    rw [text, List.map_cons, List.map_append, List.cons_append, List.append_assoc]
    show Pattern.assemble outer before (.opening .square :: _) = _
    rw [Pattern.assemble]
    exact assemble_phrases h.1 h.2 []

/-- Only a blank behind a word is read as one. -/
theorem addBlank_items (before : List Item) (h : c.IsPlain) : Pattern.addBlank (before ++ c.items) =
    before ++ c.items ++ if c.isWord then [.blank] else [] := by
  cases c with
  | word w =>
    obtain ⟨v, d, rfl⟩ := (List.eq_nil_or_concat' w).resolve_left h.ne
    refine Pattern.addBlank_of_getLast? fun as => ?_
    simp [items]
  | optional phrases =>
    rw [items, Pattern.addBlank, List.getLast?_concat]
    exact (List.append_nil _).symm

theorem assemble_after (h : ∀ c ∈ cs, c.IsPlain) {afterWord : Bool}
    (hlast : Pattern.addBlank before = before ++ if afterWord then [.blank] else []) :
    Pattern.assemble [] before ((cs.flatMap fun c => ' ' :: c.text).map token) =
      .ok (before ++ itemsAfter afterWord cs) := by
  induction cs generalizing before afterWord with
  | nil => rw [List.flatMap_nil, List.map_nil, Pattern.assemble, itemsAfter, List.append_nil]
  | cons c cs ih =>
    obtain ⟨hc, hcs⟩ := List.forall_mem_cons.mp h
    have hblank : token ' ' = .blank := rfl
    rw [List.flatMap_cons, List.cons_append, List.map_cons, List.map_append, hblank, Pattern.assemble,
      assemble_clause hc, hlast, ih hcs (addBlank_items _ hc), itemsAfter]
    simp only [List.append_assoc]

/-- Besides blanks and the characters of words there are only the brackets and bars of optional parts. -/
theorem mem_text {d : Char} (h : c.IsPlain) (hd : d ∈ c.text) :
    (d ∉ Pattern.signs ∨ d ∈ ['[', ']', '|']) ∧ d ≠ '\x7b' := by
  cases c with
  | word w =>
    obtain ⟨hsigns, -, hcurly⟩ := plain_of_mem_word h hd
    exact ⟨.inl hsigns, hcurly⟩
  | optional phrases =>
    rw [text, List.mem_cons, List.mem_append, List.mem_singleton] at hd
    rcases hd with rfl | hd | rfl
    · decide
    · rcases mem_of_mem_intercalate hd with hbar | ⟨t, ht, hd⟩
      · rw [List.mem_singleton.mp hbar]
        decide
      · obtain ⟨ws, hws, rfl⟩ := List.mem_map.mp ht
        obtain ⟨hsigns, hcurly⟩ := plain_of_mem_sentence (h.2 ws hws).words hd
        exact ⟨.inl hsigns, hcurly⟩
    · decide

theorem mem_written {d : Char} (h : ∀ c ∈ cs, c.IsPlain) (hd : d ∈ written cs) :
    (d ∉ Pattern.signs ∨ d ∈ ['[', ']', '|']) ∧ d ≠ '\x7b' := by
  rcases mem_of_mem_intercalate hd with hblank | ⟨t, ht, hd⟩
  · rw [List.mem_singleton.mp hblank]
    decide
  · obtain ⟨c, hc, rfl⟩ := List.mem_map.mp ht
    exact mem_text (h c hc) hd

theorem written_cons (c : Clause) (cs : List Clause) :
    written (c :: cs) = c.text ++ cs.flatMap fun c => ' ' :: c.text := by
  rw [written, List.map_cons, intercalate_cons, List.flatMap_map]
  rfl

theorem items_written (h : ∀ c ∈ cs, c.IsPlain) : Pattern.items (written cs) = .ok (itemsAfter false cs) := by
  rw [Pattern.items, tokensFrom_map fun d hd => (mem_written h hd).1]
  cases cs with
  | nil => rfl
  | cons c cs =>
    obtain ⟨hc, hcs⟩ := List.forall_mem_cons.mp h
    rw [written_cons, List.map_append, assemble_clause hc, assemble_after hcs (addBlank_items [] hc)]
    rfl

end Reading

/-! ### Pieces -/

section Pieces

variable {c : Clause} {cs : List Clause} {s : Surroundings} {ps : List Pattern.Piece}

theorem trimPieces_char (t : Text) : Pattern.trimPieces (t.map .char) = (trim t).map .char := by
  have hspace : Pattern.Piece.isSpace ∘ .char = Text.isSpace := rfl
  rw [Pattern.trimPieces, List.dropWhile_map, ← List.map_reverse, List.dropWhile_map, ← List.map_reverse,
    hspace]
  rfl

theorem piecesFrom_phrase (s : Surroundings) {ws : List Text} (h : IsPhrase ws) :
    Pattern.piecesFrom s false [] (phraseItems ws) = (sentence ws).map .char := by
  have hend : trimEnd (sentence ws) = sentence ws := by
    have htrim := trimEnd_trim (sentence ws)
    rwa [trim_sentence h.words] at htrim
  have hsettle : (sentence ws).foldl settle [] = sentence ws := by
    rw [foldl_settle hend, collapse_sentence h.words]
  have hpieces := Pattern.piecesFrom_plainItem s false [] (sentence ws)
  rwa [hsettle] at hpieces

theorem alternatives_phrases (s : Surroundings) {phrases : List (List Text)}
    (h : ∀ ws ∈ phrases, IsPhrase ws) :
    Pattern.alternatives (Pattern.piecesOfEach s false (phrases.map phraseItems)) =
      phrases.map phraseExpression := by
  induction phrases with
  | nil => rfl
  | cons ws phrases ih =>
    obtain ⟨hws, hphrases⟩ := List.forall_mem_cons.mp h
    have htrim : Pattern.trimPieces ((sentence ws).map .char) = (sentence ws).map .char := by
      rw [trimPieces_char, trim_sentence hws.words]
    have hne : ((sentence ws).map Pattern.Piece.char).isEmpty = false := by
      rw [List.isEmpty_map, List.isEmpty_eq_false_iff]
      exact sentence_ne_nil hws
    have hfirst : Pattern.alternatives (Pattern.piecesOfEach s false ((ws :: phrases).map phraseItems)) =
        Pattern.join ((sentence ws).map .char) ::
          Pattern.alternatives (Pattern.piecesOfEach s false (phrases.map phraseItems)) := by
      rw [List.map_cons, Pattern.piecesOfEach, Pattern.alternatives, List.map_cons,
        piecesFrom_phrase s hws, htrim, List.filter_cons_of_pos (by rw [hne]; rfl), List.map_cons]
      rfl
    rw [hfirst, ih hphrases, Pattern.join_char]
    rfl

theorem piecesFrom_word (s : Surroundings) (w : Text) (ps : List Pattern.Piece) (is : List Item) :
    Pattern.piecesFrom s true ps (w.map .literal ++ is) =
      Pattern.piecesFrom s true (ps ++ w.map .char) is := by
  induction w generalizing ps with
  | nil => rw [List.map_nil, List.map_nil, List.append_nil, List.nil_append]
  | cons c w ih =>
    rw [List.map_cons, List.cons_append, Pattern.piecesFrom, Pattern.Item.addTo, ih, List.append_assoc]
    rfl

/-- What there is ends with something that is no blank. -/
def Unspaced (ps : List Pattern.Piece) : Prop := ∀ p, ps.getLast? = some p → p.isBlank = false

theorem unspaced_concat (ps : List Pattern.Piece) {p : Pattern.Piece} (h : p.isBlank = false) :
    Unspaced (ps ++ [p]) := by
  intro q hq
  rw [List.getLast?_concat] at hq
  rwa [← Option.some.inj hq]

theorem unspaced_pieces (ps : List Pattern.Piece) (h : c.IsPlain) : Unspaced (ps ++ c.pieces) := by
  cases c with
  | word w =>
    obtain ⟨v, d, rfl⟩ := (List.eq_nil_or_concat' w).resolve_left h.ne
    have hd : isSpace d = false := (plain_of_mem_word h (by simp)).2.1
    rw [pieces, List.map_append, ← List.append_assoc]
    refine unspaced_concat _ (beq_eq_false_iff_ne.mpr ?_)
    rintro rfl
    cases hd
  | optional phrases => exact unspaced_concat ps rfl

theorem pieces_ne_nil (h : c.IsPlain) : c.pieces ≠ [] := by
  cases c with
  | word w => exact fun hnil => h.ne (List.map_eq_nil_iff.mp hnil)
  | optional phrases => exact List.cons_ne_nil _ _

theorem dropBlanks_of_unspaced (h : Unspaced ps) : Pattern.dropBlanks ps = ps := by
  rcases List.eq_nil_or_concat' ps with rfl | ⟨ps, p, rfl⟩
  · rfl
  · have hp := h p List.getLast?_concat
    simp [Pattern.dropBlanks, hp]

theorem dropBlanks_blank (h : Unspaced ps) : Pattern.dropBlanks (ps ++ [.char ' ']) = ps := by
  have hdrop : Pattern.dropBlanks (ps ++ [.char ' ']) = Pattern.dropBlanks ps := by
    simp [Pattern.dropBlanks, Pattern.Piece.isBlank]
  rw [hdrop, dropBlanks_of_unspaced h]

theorem addSeparator_of_unspaced (h : Unspaced ps) (hne : ps ≠ []) :
    Pattern.addSeparator ps = ps ++ [.char ' '] := by
  obtain ⟨qs, p, rfl⟩ := (List.eq_nil_or_concat' ps).resolve_left hne
  have hp := h p List.getLast?_concat
  rw [Pattern.addSeparator, List.getLast?_concat]
  exact if_neg (by rw [hp]; exact Bool.false_ne_true)

/-- A blank before an optional part is dropped again. -/
theorem piecesFrom_clause (s : Surroundings) (h : c.IsPlain) {afterWord : Bool} (hps : Unspaced ps)
    (hword : afterWord = true → ps ≠ []) (is : List Item) :
    Pattern.piecesFrom s true ps ((if afterWord then [.blank] else []) ++ (c.items ++ is)) =
      Pattern.piecesFrom s true (ps ++ separator afterWord c ++ c.pieces) is := by
  cases c with
  | word w =>
    cases afterWord with
    | false =>
      have hseparator : separator false (word w) = [] := rfl
      rw [hseparator, List.append_nil]
      exact piecesFrom_word s w ps is
    | true =>
      have hblank : Pattern.piecesFrom s true ps ([.blank] ++ (items (word w) ++ is)) =
          Pattern.piecesFrom s true (Pattern.addSeparator ps) (items (word w) ++ is) := rfl
      rw [if_pos rfl, hblank, addSeparator_of_unspaced hps (hword rfl)]
      exact piecesFrom_word s w _ is
  | optional phrases =>
    have hpart : ∀ qs, Pattern.piecesFrom s true qs (items (optional phrases) ++ is) =
        Pattern.piecesFrom s true (Pattern.dropBlanks qs ++ pieces (optional phrases)) is := by
      intro qs
      rw [items, List.singleton_append, Pattern.piecesFrom, Pattern.Item.addTo, alternatives_phrases s h.2]
      rfl
    have hseparator : separator afterWord (optional phrases) = [] := by
      rw [separator, isWord, Bool.and_false]
      rfl
    rw [hseparator, List.append_nil]
    cases afterWord with
    | false =>
      rw [if_neg Bool.false_ne_true, List.nil_append, hpart, dropBlanks_of_unspaced hps]
    | true =>
      have hblank : Pattern.piecesFrom s true ps ([.blank] ++ (items (optional phrases) ++ is)) =
          Pattern.piecesFrom s true (Pattern.addSeparator ps) (items (optional phrases) ++ is) := rfl
      rw [if_pos rfl, hblank, addSeparator_of_unspaced hps (hword rfl), hpart, dropBlanks_blank hps]

theorem piecesFrom_itemsAfter (s : Surroundings) (h : ∀ c ∈ cs, c.IsPlain) {afterWord : Bool}
    (hps : Unspaced ps) (hword : afterWord = true → ps ≠ []) :
    Pattern.piecesFrom s true ps (itemsAfter afterWord cs) = ps ++ piecesAfter afterWord cs := by
  induction cs generalizing ps afterWord with
  | nil => exact (List.append_nil ps).symm
  | cons c cs ih =>
    obtain ⟨hc, hcs⟩ := List.forall_mem_cons.mp h
    have hne : ps ++ separator afterWord c ++ c.pieces ≠ [] := fun hnil =>
      pieces_ne_nil hc (List.append_eq_nil_iff.mp hnil).2
    rw [itemsAfter, piecesFrom_clause s hc hps hword,
      ih hcs (unspaced_pieces _ hc) fun _ => hne, piecesAfter, List.append_assoc, List.append_assoc]

theorem expression_items (s : Surroundings) (h : ∀ c ∈ cs, c.IsPlain) :
    Pattern.expression s (itemsAfter false cs) = expressionOf cs := by
  have hempty : Unspaced [] := fun _ h => nomatch h
  have hnever : false = true → ([] : List Pattern.Piece) ≠ [] := fun h => nomatch h
  rw [Pattern.expression, piecesFrom_itemsAfter s h hempty hnever, List.nil_append, expressionOf]

end Pieces

/-! ### Optional parts -/

/-- What can be said for an optional part. -/
def courses (phrases : List (List Text)) : List Expression :=
  (phrases.map phraseExpression).map (fun e => .seq .gap (.seq e .gap)) ++ [.gap]

theorem eitherOf_courses (ws : List Text) (phrases : List (List Text)) :
    Expression.eitherOf (courses (ws :: phrases)) =
      .either (.seq .gap (.seq (phraseExpression ws) .gap)) (.eitherOf (courses phrases)) := by
  have hne : courses phrases ≠ [] := List.append_ne_nil_of_right_ne_nil _ (List.cons_ne_nil _ _)
  obtain ⟨e, es, hcourses⟩ := List.exists_cons_of_ne_nil hne
  have hcons : courses (ws :: phrases) =
      .seq .gap (.seq (phraseExpression ws) .gap) :: courses phrases := rfl
  rw [hcons, hcourses, Expression.eitherOf]
  exact List.cons_ne_nil e es

/-! ### Matchers -/

section Matching

variable {cs : List Clause}

theorem neat_text {c : Clause} (h : c.IsPlain) : Neat c.text := by
  cases c with
  | word w => exact (isName_of_word h).neat
  | optional phrases =>
    refine ⟨List.cons_ne_nil _ _, ?_⟩
    have hstart : trimStart (optional phrases).text = (optional phrases).text := rfl
    have hend : trimEnd [']'] = [']'] := rfl
    rw [trim, hstart, text, ← List.cons_append, trimEnd_append, hend, if_neg (List.cons_ne_nil _ _)]

theorem trim_written (h : ∀ c ∈ cs, c.IsPlain) : trim (written cs) = written cs := by
  cases cs with
  | nil => rfl
  | cons c cs =>
    refine (Neat.intercalate (List.cons_ne_nil _ _) fun t ht => ?_).trim
    have ht : t ∈ (c :: cs).map text := ht
    obtain ⟨c', hc', rfl⟩ := List.mem_map.mp ht
    exact neat_text (h c' hc')

theorem strip_written (h : ∀ c ∈ cs, c.IsPlain) : Weight.strip (written cs) = written cs := by
  have hcurly : '\x7b' ∉ written cs := fun hmem => (mem_written h hmem).2 rfl
  rw [Weight.strip_of_none (Weight.first?_of_not_mem hcurly), trim_written h]

theorem isVerbatim_written (h : ∀ c ∈ cs, c.IsPlain) :
    Pattern.isVerbatim (written cs) = cs.all isWord := by
  rw [Bool.eq_iff_iff, Pattern.isVerbatim_iff, List.all_eq_true]
  constructor
  · intro hverbatim c hc
    cases c with
    | word w => rfl
    | optional phrases =>
      have hmem : '[' ∈ written cs := mem_intercalate (List.mem_map_of_mem hc) List.mem_cons_self
      exact absurd (by decide) (hverbatim '[' hmem)
  · intro hwords d hd hsign
    have hsigns : "*#_([<@\\".toList.all (Pattern.signs.contains ·) = true := by decide
    have hplain := List.contains_iff_mem.mp (List.all_eq_true.mp hsigns d hsign)
    rcases mem_of_mem_intercalate hd with hblank | ⟨t, ht, hd⟩
    · rw [List.mem_singleton.mp hblank] at hsign
      exact absurd hsign (by decide)
    · obtain ⟨c, hc, rfl⟩ := List.mem_map.mp ht
      cases c with
      | word w => exact (plain_of_mem_word (h _ hc) hd).1 hplain
      | optional phrases => cases hwords _ hc

/-- Words alone are matched as what they are. -/
theorem collapse_written (h : ∀ c ∈ cs, c.IsPlain) (hwords : cs.all isWord = true) :
    collapse (written cs) = written cs := by
  rw [collapse, written, words_intercalate]
  intro t ht
  obtain ⟨c, hc, rfl⟩ := List.mem_map.mp ht
  cases c with
  | word w => exact isName_of_word (h _ hc)
  | optional phrases => cases List.all_eq_true.mp hwords _ hc

/-- Words alone are compared as a whole, and words with optional parts between them matched as what they
mean. -/
theorem ofPattern_written (s : Surroundings) (strict : Bool) (h : ∀ c ∈ cs, c.IsPlain) :
    Matcher.ofPattern s strict (written cs) =
      if cs.all isWord then .ok (.exactly (written cs))
      else Matcher.ofExpression s.engine strict (written cs) (expressionOf cs) := by
  have hline : trim (written cs) ≠ ['*'] := by
    rw [trim_written h]
    intro hstar
    have hmem := (mem_written (d := '*') h (by rw [hstar]; exact List.mem_cons_self)).1
    revert hmem
    decide
  by_cases hwords : cs.all isWord = true
  · rw [Matcher.ofPattern, strip_written h, isVerbatim_written h, if_pos hwords, if_pos hwords,
      collapse_written h hwords]
  · rw [Matcher.ofPattern_of_items s strict (strip_written h) (by rwa [isVerbatim_written h]) hline
      (items_written h), expression_items s h, if_neg hwords]

end Matching

end Clause

end Dialogue
