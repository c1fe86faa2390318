import Dialogue.Proofs.Nesting

/-! Brackets as characters. A pattern shows some of its brackets and hides others, after a backslash
or in a tag. Only those that it shows count, and if as many of them are closed as are opened, only
their order matters. -/
namespace Dialogue

def isBracket (c : Char) : Bool := "()[]".toList.contains c

def Bracket.opening : Bracket → Char
  | .round => '('
  | .square => '['

namespace Text

/-- Takes away the innermost bracket, which has to be of the kind. -/
def closeInner (b : Bracket) : List Bracket → Option (List Bracket)
  | [] => none
  | o :: opened => if o = b then some opened else none

/-- What a character makes of the brackets that are open, the innermost first. -/
def meet (opened : List Bracket) (c : Char) : Option (List Bracket) :=
  if c = '(' then some (.round :: opened)
  else if c = '[' then some (.square :: opened)
  else if c = ')' then closeInner .round opened
  else if c = ']' then closeInner .square opened
  else some opened

/-- The brackets that are open after a text; none if one is closed that is not the innermost. -/
def openAfter (opened : List Bracket) (t : Text) : Option (List Bracket) := t.foldlM meet opened

/-- Every bracket that is closed is the innermost one. -/
def InOrder (t : Text) : Prop := (openAfter [] t).isSome

/-- As many brackets of each kind are closed as are opened. -/
def Paired (t : Text) : Prop := ∀ b : Bracket, t.count b.opening = t.count b.closing

instance (t : Text) : Decidable (InOrder t) := inferInstanceAs (Decidable (_ = true))

theorem openAfter_cons (opened : List Bracket) (c : Char) (t : Text) :
    openAfter opened (c :: t) = (meet opened c).bind fun o => openAfter o t := List.foldlM_cons

theorem eq_cons_of_closeInner {b : Bracket} {opened rest : List Bracket}
    (h : closeInner b opened = some rest) : opened = b :: rest := by
  cases opened with
  | nil => cases h
  | cons o opened =>
    rw [closeInner] at h
    split at h
    · rename_i ho
      rw [ho, Option.some.inj h]
    · cases h

/-- What is opened is closed later or stays open. -/
theorem count_meet {opened rest : List Bracket} {c : Char} (h : meet opened c = some rest)
    (b : Bracket) : rest.count b + [c].count b.closing = opened.count b + [c].count b.opening := by
  rw [meet] at h
  split at h
  · rename_i hc
    cases h
    cases b <;> simp [hc, Bracket.opening, Bracket.closing]
  split at h
  · rename_i hc
    cases h
    cases b <;> simp [hc, Bracket.opening, Bracket.closing]
  split at h
  · rename_i hc
    rw [eq_cons_of_closeInner h, hc]
    cases b <;> simp [Bracket.opening, Bracket.closing]
  split at h
  · rename_i hc
    rw [eq_cons_of_closeInner h, hc]
    cases b <;> simp [Bracket.opening, Bracket.closing]
  · cases h
    cases b <;> simp [Bracket.opening, Bracket.closing, *]

theorem count_openAfter {opened rest : List Bracket} {t : Text}
    (h : openAfter opened t = some rest) (b : Bracket) :
    rest.count b + t.count b.closing = opened.count b + t.count b.opening := by
  induction t generalizing opened with
  | nil =>
    cases h
    rfl
  | cons c t ih =>
    rw [openAfter_cons] at h
    obtain ⟨o, hc, h⟩ := Option.bind_eq_some_iff.mp h
    have hstep := count_meet hc b
    have hrest := ih h
    rw [← List.singleton_append, List.count_append, List.count_append]
    omega

theorem eq_of_cutAt? {sep : Char → Bool} {t before rest : Text}
    (h : cutAt? sep t = some (before, rest)) : ∃ c, sep c ∧ t = before ++ c :: rest := by
  induction t generalizing before with
  | nil => cases h
  | cons c t ih =>
    rw [cutAt?] at h
    split at h
    · rename_i hc
      cases h
      exact ⟨c, hc, rfl⟩
    · obtain ⟨⟨before', rest'⟩, hcut, heq⟩ := Option.map_eq_some_iff.mp h
      cases heq
      obtain ⟨d, hd, rfl⟩ := ih hcut
      exact ⟨d, hd, rfl⟩

theorem count_cons_eq (x c : Char) (t : Text) : (c :: t).count x = [c].count x + t.count x := by
  rw [← List.singleton_append, List.count_append]

theorem count_silent {x c : Char} (hx : isBracket x) (hc : isBracket c = false) :
    [c].count x = 0 := by
  refine List.count_eq_zero_of_not_mem fun hmem => ?_
  rw [List.mem_singleton.mp hmem, hc] at hx
  cases hx

/-! ### What editing leaves of the brackets -/

theorem filter_editFrom {read : Reader Text}
    (h : ∀ t new rest, read t = some (new, rest) → ∃ taken, taken ≠ [] ∧ t = taken ++ rest ∧
      taken.filter isBracket = new.filter isBracket) (skip : Nat) (t : Text) :
    (editFrom read skip t).filter isBracket = (t.drop skip).filter isBracket := by
  fun_induction editFrom read skip t with
  | case1 => simp
  | case2 skip c t ih => exact ih
  | case3 c t new rest hread ih =>
    obtain ⟨taken, hne, heq, htaken⟩ := h _ _ _ hread
    obtain ⟨c', taken, rfl⟩ := List.exists_cons_of_ne_nil hne
    rw [List.cons_append] at heq
    cases heq
    have hdrop : (taken ++ rest).drop ((taken ++ rest).length - rest.length) = rest := by
      rw [List.length_append, Nat.add_sub_cancel, List.drop_left]
    rw [hdrop] at ih
    rw [List.filter_append, ih, ← htaken, ← List.filter_append]
    rfl
  | case4 c t hread ih =>
    rw [List.filter_cons, ih]
    exact List.filter_cons.symm

theorem filter_edit {read : Reader Text}
    (h : ∀ t new rest, read t = some (new, rest) → ∃ taken, taken ≠ [] ∧ t = taken ++ rest ∧
      taken.filter isBracket = new.filter isBracket) (t : Text) :
    (edit read t).filter isBracket = t.filter isBracket := filter_editFrom h 0 t

theorem isBracket_of_plain {c : Char} (hc : c ∉ Pattern.signs) : isBracket c = false := by
  rw [← Bool.not_eq_true, isBracket, List.contains_iff_mem]
  intro hb
  have hsigns : ∀ b ∈ "()[]".toList, b ∈ Pattern.signs := List.all_iff_forall_prop.mp (by decide)
  exact hc (hsigns c hb)

theorem filter_of_isSpace {t : Text} (h : ∀ c ∈ t, isSpace c) : t.filter isBracket = [] := by
  rw [List.filter_eq_nil_iff]
  intro c hc
  rw [isBracket_of_plain (Pattern.isPlain_of_isSpace (h c hc))]
  exact Bool.false_ne_true

theorem filter_trimStart (t : Text) : (trimStart t).filter isBracket = t.filter isBracket := by
  obtain ⟨s, hs, hsplit⟩ := trimStart_eq t
  have hfilter := congrArg (List.filter isBracket) hsplit
  rw [List.filter_append, filter_of_isSpace hs, List.nil_append] at hfilter
  exact hfilter.symm

theorem filter_trim (t : Text) : (trim t).filter isBracket = t.filter isBracket := by
  have hreverse := filter_trimStart (trimStart t).reverse
  rw [trim, trimEnd, List.filter_reverse]
  rw [trimStart] at hreverse
  rw [hreverse, List.filter_reverse, List.reverse_reverse, filter_trimStart]

end Text

namespace Weight

open Text

theorem readWithSpace_eq_some {t digits rest : Text} (h : readWithSpace t = some (digits, rest)) :
    ∃ taken, taken ≠ [] ∧ t = taken ++ rest ∧ taken.filter isBracket = [] := by
  obtain ⟨⟨_, after⟩, hread, h⟩ := Option.bind_eq_some_iff.mp h
  cases h
  obtain ⟨heq, hdigits⟩ := @of_readNumber "\x7bweight=" (trimStart t) digits after hread
  obtain ⟨s, hs, hbefore⟩ := trimStart_eq t
  obtain ⟨u, hu, hafter⟩ := trimStart_eq after
  have hnumber : digits.filter isBracket = [] := by
    rw [List.filter_eq_nil_iff]
    intro c hc
    rw [isBracket_of_plain (Pattern.isPlain_of_isDigit (hdigits c hc))]
    exact Bool.false_ne_true
  refine ⟨s ++ (("\x7bweight=" : Text) ++ (digits ++ '\x7d' :: u)), by simp, ?_, ?_⟩
  · rw [hbefore, heq]
    conv_lhs => rw [hafter]
    simp only [List.append_assoc, List.cons_append]
  · have hmark : ("\x7bweight=" : Text).filter isBracket = [] := by
      decide
    have hclosing : ('\x7d' :: u).filter isBracket = [] := by
      rw [List.filter_cons_of_neg (by decide), filter_of_isSpace hu]
    rw [List.filter_append, List.filter_append, List.filter_append, filter_of_isSpace hs, hmark,
      hnumber, hclosing]
    rfl

/-- A pattern keeps its brackets. -/
theorem filter_strip (t : Text) : (strip t).filter isBracket = t.filter isBracket := by
  rw [strip, filter_trim]
  refine filter_edit (fun t new rest h => ?_) t
  obtain ⟨⟨digits, after⟩, hread, heq⟩ := Option.map_eq_some_iff.mp h
  cases heq
  exact readWithSpace_eq_some hread

theorem count_strip {x : Char} (hx : isBracket x) (t : Text) : (strip t).count x = t.count x := by
  rw [← List.count_filter hx, filter_strip, List.count_filter hx]

end Weight

/-- The brackets that count. -/
def Token.shown : Token → Text
  | .opening b => [b.opening]
  | .closing b => [b.closing]
  | _ => []

/-- What counts for nothing even if it is a bracket. -/
def Token.hidden : Token → Text
  | .literal c => [c]
  | .tag body => body
  | _ => []

namespace Pattern

def shown (pattern : Text) : Text := (tokensFrom 0 (Weight.strip pattern)).flatMap Token.shown

def hidden (pattern : Text) : Text := (tokensFrom 0 (Weight.strip pattern)).flatMap Token.hidden

def TagsEnd (pattern : Text) : Prop := .openTag ∉ tokensFrom 0 (Weight.strip pattern)

/-- Every bracket that is shown and closed is the innermost one, and every tag ends. -/
def Orderly (pattern : Text) : Prop := TagsEnd pattern ∧ Text.InOrder (shown pattern)

instance (pattern : Text) : Decidable (TagsEnd pattern) :=
  inferInstanceAs (Decidable (_ ∉ _))

instance (pattern : Text) : Decidable (Orderly pattern) :=
  inferInstanceAs (Decidable (_ ∧ _))

theorem nesting_of_openTag {tokens : List Token} (h : .openTag ∈ tokens) (opened : List Bracket) :
    (nesting opened tokens).toOption = none := by
  induction tokens generalizing opened with
  | nil => cases h
  | cons token tokens ih =>
    cases token with
    | openTag => cases opened <;> rfl
    | closing b =>
      rcases List.mem_cons.mp h with heq | hrest
      · cases heq
      cases opened with
      | nil => rfl
      | cons o opened =>
        rw [nesting]
        split
        · exact ih hrest opened
        · rfl
    | literal | blank | wild | array | tag | bar | opening =>
      rcases List.mem_cons.mp h with heq | hrest
      · cases heq
      · cases opened <;> exact ih hrest _

/-- Brackets nest just if those that are shown are in order. -/
theorem nesting_eq {tokens : List Token} (h : .openTag ∉ tokens) (opened : List Bracket) :
    (nesting opened tokens).toOption = Text.openAfter opened (tokens.flatMap Token.shown) := by
  induction tokens generalizing opened with
  | nil => cases opened <;> rfl
  | cons token tokens ih =>
    rw [List.mem_cons, not_or] at h
    have hrest := fun opened => ih h.2 opened
    cases token with
    | openTag => exact absurd rfl h.1
    | opening b => cases b <;> cases opened <;> exact hrest _
    | closing b =>
      cases opened with
      | nil => cases b <;> rfl
      | cons o opened =>
        cases b with
        | round =>
          cases o with
          | round => exact hrest opened
          | square => rfl
        | square =>
          cases o with
          | round => rfl
          | square => exact hrest opened
    | literal | blank | wild | array | tag | bar => cases opened <;> exact hrest _

theorem isNameChar_of_isBracket {c : Char} (h : isBracket c) : isNameChar c = false := by
  have hall : ∀ b ∈ "()[]".toList, isNameChar b = false :=
    List.all_iff_forall_prop.mp (by decide +kernel)
  exact hall c (List.contains_iff_mem.mp h)

/-- How often a character is shown or hidden by some tokens. -/
def occurrences (x : Char) (tokens : List Token) : Nat :=
  (tokens.flatMap Token.shown).count x + (tokens.flatMap Token.hidden).count x

theorem occurrences_cons (x : Char) (token : Token) (tokens : List Token) :
    occurrences x (token :: tokens) =
      token.shown.count x + token.hidden.count x + occurrences x tokens := by
  rw [occurrences, List.flatMap_cons, List.flatMap_cons, List.count_append, List.count_append,
    occurrences]
  omega

/-- Every bracket of a text is shown or hidden. -/
theorem count_tokensFrom {x : Char} (hx : isBracket x) {skip : Nat} {t : Text}
    (h : .openTag ∉ tokensFrom skip t) :
    (t.drop skip).count x = occurrences x (tokensFrom skip t) := by
  have hfirst := Text.count_cons_eq x
  have hsilent : ∀ c, isBracket c = false → [c].count x = 0 := fun c hc => Text.count_silent hx hc
  fun_induction tokensFrom skip t with
  | case1 skip =>
    rw [List.drop_nil]
    rfl
  | case2 skip c t ih => exact ih h
  -- The four brackets.
  | case4 t ih | case5 t ih | case6 t ih | case7 t ih =>
    rw [List.drop_zero, hfirst, occurrences_cons, ← ih fun hmem => h (List.mem_cons_of_mem _ hmem)]
    rfl
  -- The other signs that are tokens of their own.
  | case3 t ih | case8 t ih | case9 t ih | case10 t ih =>
    rw [List.drop_zero, hfirst, occurrences_cons, ← ih fun hmem => h (List.mem_cons_of_mem _ hmem),
      hsilent _ rfl]
    rfl
  | case11 => exact (Nat.zero_add _).symm
  | case12 e t ih =>
    rw [List.drop_zero, hfirst, occurrences_cons, ← ih fun hmem => h (List.mem_cons_of_mem _ hmem),
      hsilent _ rfl, hfirst, List.drop_one, List.tail_cons]
    simp only [Token.shown, Token.hidden, List.count_nil, Nat.zero_add]
  | case13 t _ ih =>
    rw [List.drop_zero, hfirst, occurrences_cons, ← ih fun hmem => h (List.mem_cons_of_mem _ hmem)]
    simp only [Token.shown, Token.hidden, List.count_nil, Nat.zero_add, List.drop_zero]
  | case14 t _ ih =>
    have htake := List.prefix_iff_eq_take.mp (List.takeWhile_prefix isNameChar (l := t))
    have hname : (t.takeWhile isNameChar).count x = 0 := by
      refine List.count_eq_zero_of_not_mem fun hmem => ?_
      have hnone := isNameChar_of_isBracket hx
      rw [List.mem_takeWhile_imp hmem] at hnone
      cases hnone
    have hcount : t.count x = (t.drop (t.takeWhile isNameChar).length).count x := by
      conv_lhs => rw [← List.take_append_drop (t.takeWhile isNameChar).length t]
      rw [List.count_append, ← htake, hname, Nat.zero_add]
    rw [List.drop_zero, hfirst, occurrences_cons, ← ih fun hmem => h (List.mem_cons_of_mem _ hmem),
      hsilent _ rfl, hcount]
    rfl
  | case15 => exact absurd List.mem_cons_self h
  | case16 t body rest hcut ih =>
    obtain ⟨c, hc, rfl⟩ := Text.eq_of_cutAt? hcut
    obtain rfl : c = '>' := of_decide_eq_true hc
    have hdrop : (body ++ '>' :: rest).drop (body.length + 1) = rest := by
      rw [← List.drop_drop, List.drop_left]
      rfl
    rw [List.drop_zero, hfirst, occurrences_cons, ← ih fun hmem => h (List.mem_cons_of_mem _ hmem),
      hdrop, hsilent _ rfl, List.count_append, hfirst, hsilent _ rfl]
    simp only [Token.shown, Token.hidden, List.count_nil, Nat.zero_add]
  | case17 t c _ hopen hclose hopen' hclose' _ _ _ _ _ _ ih =>
    have hplain : isBracket c = false := by
      simpa [isBracket] using ⟨hopen, hclose, hopen', hclose'⟩
    rw [List.drop_zero, hfirst, occurrences_cons, ← ih fun hmem => h (List.mem_cons_of_mem _ hmem)]
    split
    · simp only [hsilent _ hplain, Token.shown, Token.hidden, List.count_nil, Nat.zero_add,
        List.drop_zero]
    · simp only [Token.shown, Token.hidden, List.count_nil, Nat.zero_add, List.drop_zero]

theorem count_eq {pattern : Text} (h : TagsEnd pattern) {x : Char} (hx : isBracket x) :
    pattern.count x = (shown pattern).count x + (hidden pattern).count x := by
  have htokens := count_tokensFrom hx h
  rw [List.drop_zero, Weight.count_strip hx] at htokens
  exact htokens

/-- With the same number of closing brackets, none is left open. -/
theorem eq_nil_of_openAfter_shown {pattern : Text} (htags : TagsEnd pattern)
    (hpaired : Text.Paired pattern) (hhidden : Text.Paired (hidden pattern))
    {opened : List Bracket} (h : Text.openAfter [] (shown pattern) = some opened) : opened = [] := by
  rw [List.eq_nil_iff_forall_not_mem]
  intro b hb
  have hopen : 0 < opened.count b := List.count_pos_iff.mpr hb
  have hshown := Text.count_openAfter h b
  have hopening := count_eq htags (x := b.opening) (by cases b <;> rfl)
  have hclosing := count_eq htags (x := b.closing) (by cases b <;> rfl)
  have hall := hpaired b
  have hsome := hhidden b
  rw [List.count_nil] at hshown
  omega

/-- If as many brackets are opened as are closed, and the same goes for those that are hidden, only
the order of the others and the ends of tags matter. -/
theorem check_eq_ok_iff {pattern : Text} (hpaired : Text.Paired pattern)
    (hhidden : Text.Paired (hidden pattern)) :
    check pattern = .ok () ↔ Orderly pattern := by
  rw [check_eq, Orderly]
  by_cases htags : TagsEnd pattern
  · have hnesting := nesting_eq htags []
    rw [Text.InOrder, shown, ← hnesting]
    cases hn : nesting [] (tokensFrom 0 (Weight.strip pattern)) with
    | error cause => exact ⟨(nomatch ·), (nomatch ·.2)⟩
    | ok opened =>
      rw [hn] at hnesting
      rw [eq_nil_of_openAfter_shown htags hpaired hhidden hnesting.symm]
      exact ⟨fun _ => ⟨htags, rfl⟩, fun _ => rfl⟩
  · have hnone := nesting_of_openTag (not_not.mp htags) []
    cases hn : nesting [] (tokensFrom 0 (Weight.strip pattern)) with
    | error cause => exact ⟨(nomatch ·), fun h => absurd h.1 htags⟩
    | ok opened =>
      rw [hn] at hnone
      cases hnone

end Pattern

end Dialogue
