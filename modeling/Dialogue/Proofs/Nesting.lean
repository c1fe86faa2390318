import Dialogue.Pattern.Matcher
import Dialogue.Proofs.Literal
import Dialogue.Proofs.Trim
import Mathlib.Data.Bool.AllAny

/-! The brackets of a pattern. They alone decide whether it is malformed: everything else can stand
where it likes, and so can the mark of a level in front. -/
namespace Dialogue

namespace Pattern

/-- The brackets that are open after some tokens, the innermost first. -/
def nesting : List Bracket → List Token → Except Malformed (List Bracket)
  | opened, [] => .ok opened
  | opened, .opening b :: tokens => nesting (b :: opened) tokens
  | [], .closing b :: _ => .error (.unmatched b.closing)
  | o :: opened, .closing b :: tokens =>
    if o = b then nesting opened tokens else .error (.unmatched b.closing)
  | _, .openTag :: _ => .error (.missing '>')
  | opened, _ :: tokens => nesting opened tokens

/-- Nothing may be open at the end. -/
def close : List Bracket → Except Malformed Unit
  | [] => .ok ()
  | b :: _ => .error (.missing b.closing)

theorem assemble_eq (outer : List Open) (items : List Item) (tokens : List Token) :
    (assemble outer items tokens).map (fun _ => ()) =
      nesting (outer.map Open.bracket) tokens >>= close := by
  induction tokens generalizing outer items with
  | nil => cases outer <;> rfl
  | cons token tokens ih =>
    cases token with
    | opening b => cases outer <;> exact ih _ _
    | openTag => cases outer <;> rfl
    | bar =>
      cases outer with
      | nil => exact ih _ _
      | cons o outer => exact ih _ _
    | closing b =>
      cases outer with
      | nil => rfl
      | cons o outer =>
        rw [assemble, List.map_cons, nesting]
        split
        · exact ih _ _
        · rfl
    | literal | blank | wild | array | tag => cases outer <;> exact ih _ _

theorem check_eq (pattern : Text) :
    check pattern = nesting [] (tokensFrom 0 (Weight.strip pattern)) >>= close :=
  assemble_eq [] [] _

/-! ### Characters that mean nothing else -/

def signs : List Char := ['|', '(', ')', '[', ']', '*', '#', '_', '\\', '@', '<']

theorem tokensFrom_cons {c : Char} (hc : c ∉ signs) (t : Text) : tokensFrom 0 (c :: t) =
    (if Text.isSpace c then .blank else .literal c) :: tokensFrom 0 t := by
  have hne : ∀ s ∈ signs, c ≠ s := by
    intro s hs heq
    exact hc (heq ▸ hs)
  rw [tokensFrom]
  all_goals exact hne _ (by decide)

/-- They open and close nothing. -/
theorem nesting_tokensFrom_append {p : Text} (hp : ∀ c ∈ p, c ∉ signs) (opened : List Bracket)
    (t : Text) : nesting opened (tokensFrom 0 (p ++ t)) = nesting opened (tokensFrom 0 t) := by
  induction p with
  | nil => rfl
  | cons c p ih =>
    rw [List.forall_mem_cons] at hp
    rw [List.cons_append, tokensFrom_cons hp.1, ← ih hp.2]
    split <;> cases opened <;> rfl

/-- What a token is by itself, outside brackets. -/
def item? : Token → Option Item
  | .literal c => some (.literal c)
  | .blank => some .blank
  | .wild w => some (.wild w)
  | .array name => some (.array name)
  | .tag body => some (.tag body)
  | .bar => some (.literal '|')
  | .opening _ | .closing _ | .openTag => none

theorem addBlank_of_getLast? {before : List Item} (h : ∀ as, before.getLast? ≠ some (.optional as)) :
    addBlank before = before ++ [.blank] := by
  rw [addBlank]
  split
  · rename_i as hoptional
    exact absurd hoptional (h as)
  · rfl

/-- Where nothing is opened, closed or parted, items are put together one by one. A blank right behind
an optional part would belong to it. -/
theorem assemble_append {α : Type} {token : α → Token} {item : α → Item} {l : List α} {outer : List Open}
    {before : List Item} (h : ∀ a ∈ l, item? (token a) = some (item a))
    (hbar : outer = [] ∨ ∀ a ∈ l, token a ≠ .bar)
    (hlast : ∀ as, before.getLast? = some (.optional as) → (l.map token).head? ≠ some .blank)
    (rest : List Token) :
    assemble outer before (l.map token ++ rest) = assemble outer (before ++ l.map item) rest := by
  induction l generalizing before with
  | nil => rw [List.map_nil, List.map_nil, List.append_nil, List.nil_append]
  | cons a l ih =>
    obtain ⟨ha, hl⟩ := List.forall_mem_cons.mp h
    have hnext : ∀ as, (before ++ [item a]).getLast? = some (.optional as) →
        (l.map token).head? ≠ some .blank := by
      intro as hoptional
      rw [List.getLast?_concat] at hoptional
      rw [Option.some.inj hoptional] at ha
      cases hb : token a <;> rw [hb] at ha <;> cases ha
    have hbars := hbar.imp_right fun h => (List.forall_mem_cons.mp h).2
    rw [List.map_cons, List.map_cons, List.append_cons, ← ih hl hbars hnext, List.cons_append]
    cases htoken : token a with
    | blank =>
      have hplain : ∀ as, before.getLast? ≠ some (.optional as) := fun as hoptional =>
        hlast as hoptional (by rw [List.map_cons, htoken]; rfl)
      rw [htoken] at ha
      rw [assemble, addBlank_of_getLast? hplain, ← Option.some.inj ha]
    | bar =>
      obtain rfl := hbar.resolve_right fun h => h a List.mem_cons_self htoken
      rw [htoken] at ha
      rw [assemble, ← Option.some.inj ha]
    | literal | wild | array | tag =>
      rw [htoken] at ha
      rw [assemble, ← Option.some.inj ha]
    | opening | closing | openTag =>
      rw [htoken] at ha
      cases ha

theorem assemble_map {α : Type} {token : α → Token} {item : α → Item} {l : List α}
    (h : ∀ a ∈ l, item? (token a) = some (item a)) (before : List Item)
    (hlast : ∀ as, before.getLast? ≠ some (.optional as)) :
    assemble [] before (l.map token) = .ok (before ++ l.map item) := by
  have happend := assemble_append h (.inl rfl) (fun as hoptional => absurd hoptional (hlast as)) []
  rw [List.append_nil] at happend
  rw [happend, assemble]

theorem isPlain_of_isSpace {c : Char} (hc : Text.isSpace c) : c ∉ signs := by
  intro hs
  have hall : ∀ s ∈ signs, Text.isSpace s = false := List.all_iff_forall_prop.mp (by decide)
  rw [hall c hs] at hc
  contradiction

theorem isPlain_of_isDigit {c : Char} (hc : Text.isDigit c) : c ∉ signs := by
  intro hs
  have hall : ∀ s ∈ signs, Text.isDigit s = false := List.all_iff_forall_prop.mp (by decide)
  rw [hall c hs] at hc
  contradiction

end Pattern

namespace Text

/-- What a mark with a number is made of. -/
theorem of_readNumber {opening t digits rest : Text}
    (h : (do
      let u ← List.isPrefixOf? opening t
      match u.takeWhile isDigit, u.dropWhile isDigit with
      | [], _ => none
      | digits, '\x7d' :: after => some (digits, after)
      | _, _ => none) = some (digits, rest)) :
    t = opening ++ (digits ++ '\x7d' :: rest) ∧ ∀ c ∈ digits, isDigit c := by
  obtain ⟨u, hu, h⟩ := Option.bind_eq_some_iff.mp h
  have hopening : opening ++ u = t := List.isPrefixOf?_eq_some_iff_append_eq.mp hu
  have hsplit : u.takeWhile isDigit ++ u.dropWhile isDigit = u := List.takeWhile_append_dropWhile
  have hdigits : ∀ c ∈ u.takeWhile isDigit, isDigit c := fun c hc => List.mem_takeWhile_imp hc
  split at h
  · cases h
  · rename_i hrest _
    cases h
    rw [hrest] at hsplit
    exact ⟨by rw [hsplit, hopening], hdigits⟩
  · cases h

end Text

namespace Weight

open Text

theorem head_of_read {t : Text} {found : Text × Text} (h : read t = some found) :
    ∃ u, t = '\x7b' :: 'w' :: u := by
  obtain ⟨digits, rest⟩ := found
  have hread := @of_readNumber "\x7bweight=" t digits rest h
  exact ⟨_, hread.1⟩

/-- An annotation in what follows a mark is not affected by it. -/
theorem strip_append {mark : Text} (hspace : ∀ c ∈ '\x7b' :: 'i' :: mark, isSpace c = false)
    (hcurly : ∀ c ∈ 'i' :: mark, c ≠ '\x7b') (rest : Text) :
    ∃ blanks, (∀ c ∈ blanks, isSpace c) ∧
      strip ('\x7b' :: 'i' :: mark ++ rest) = '\x7b' :: 'i' :: mark ++ (blanks ++ strip rest) := by
  have hread : ∀ u, u <:+ '\x7b' :: 'i' :: mark → u ≠ [] → readWithSpace (u ++ rest) = none := by
    intro u hu hne
    obtain ⟨c, v, rfl⟩ := List.exists_cons_of_ne_nil hne
    have hstart : trimStart (c :: v ++ rest) = c :: v ++ rest := by
      have hc : ¬ isSpace c = true := by
        rw [hspace c (hu.subset List.mem_cons_self)]
        exact Bool.false_ne_true
      exact List.dropWhile_cons_of_neg hc
    rw [readWithSpace, hstart]
    cases hr : read (c :: v ++ rest) with
    | none => rfl
    | some found =>
      obtain ⟨w, hw⟩ := head_of_read hr
      rcases List.suffix_cons_iff.mp hu with heq | hu
      · cases heq
        cases hw
      · rw [List.cons_append, List.cons.injEq] at hw
        exact absurd hw.1 (hcurly c (hu.subset List.mem_cons_self))
  have htrim : ∀ u, trim ('\x7b' :: 'i' :: mark ++ u) = '\x7b' :: 'i' :: mark ++ trimEnd u :=
    fun u => trimEnd_append_of_solid hspace u
  obtain ⟨edited, hrest, hwhole⟩ : ∃ edited, strip rest = trim edited ∧
      strip ('\x7b' :: 'i' :: mark ++ rest) = trim ('\x7b' :: 'i' :: mark ++ edited) := by
    refine ⟨_, rfl, ?_⟩
    rw [strip, edit_append fun u hu hne => Option.map_eq_none_iff.mpr (hread u hu hne)]
  obtain ⟨blanks, hblanks, hsplit⟩ := trimEnd_eq edited
  refine ⟨blanks, hblanks, ?_⟩
  rw [hwhole, htrim, hsplit, hrest]

end Weight

namespace Entry

theorem readLevel_eq_some {t digits rest : Text} (h : readLevel t = some (digits, rest)) :
    t = "\x7binherits=" ++ (digits ++ '\x7d' :: rest) ∧ ∀ c ∈ digits, Text.isDigit c :=
  Text.of_readNumber h

end Entry

namespace Pattern

/-- The mark of a level makes no difference, whoever wrote it. -/
theorem check_of_readLevel {t digits rest : Text} (h : Entry.readLevel t = some (digits, rest)) :
    check t = check rest := by
  obtain ⟨rfl, hdigits⟩ := Entry.readLevel_eq_some h
  have hbrace : Text.isDigit '\x7b' = false := by decide
  have hname : ∀ c ∈ ("nherits=" : Text), c ∉ signs ∧ Text.isSpace c = false ∧ c ≠ '\x7b' :=
    List.all_iff_forall_prop.mp (by decide)
  have hmark : ∀ c ∈ ("nherits=" : Text) ++ (digits ++ ['\x7d']),
      c ∉ signs ∧ Text.isSpace c = false ∧ c ≠ '\x7b' := by
    intro c hc
    rcases List.mem_append.mp hc with hc | hc
    · exact hname c hc
    rcases List.mem_append.mp hc with hc | hc
    · have hdigit := hdigits c hc
      refine ⟨isPlain_of_isDigit hdigit, Text.isSpace_of_isDigit hdigit, ?_⟩
      rintro rfl
      rw [hbrace] at hdigit
      cases hdigit
    · rw [List.mem_singleton.mp hc]
      decide
  have hstart : ∀ c ∈ ['\x7b', 'i'], c ∉ signs ∧ Text.isSpace c = false :=
    List.all_iff_forall_prop.mp (by decide)
  have hall : ∀ c ∈ '\x7b' :: 'i' :: (("nherits=" : Text) ++ (digits ++ ['\x7d'])),
      c ∉ signs ∧ Text.isSpace c = false := by
    intro c hc
    rcases List.mem_append (s := ['\x7b', 'i']).mp hc with hc | hc
    · exact hstart c hc
    · exact ⟨(hmark c hc).1, (hmark c hc).2.1⟩
  obtain ⟨blanks, hblanks, hstrip⟩ := Weight.strip_append (fun c hc => (hall c hc).2)
    (List.forall_mem_cons.mpr ⟨by decide, fun c hc => (hmark c hc).2.2⟩) rest
  have hwhole : ("\x7binherits=" : Text) ++ (digits ++ '\x7d' :: rest) =
      '\x7b' :: 'i' :: (("nherits=" : Text) ++ (digits ++ ['\x7d'])) ++ rest := by
    simp
  rw [hwhole, check_eq, hstrip, nesting_tokensFrom_append fun c hc => (hall c hc).1,
    nesting_tokensFrom_append fun c hc => isPlain_of_isSpace (hblanks c hc), ← check_eq]

/-- What is tried of an entry is as well formed as the entry. -/
theorem check_ofText (t : Text) : check (Entry.ofText t).pattern = check t := by
  rw [Entry.ofText]
  cases h : Entry.readLevel t with
  | none => rfl
  | some found => exact (check_of_readLevel h).symm

end Pattern

end Dialogue
