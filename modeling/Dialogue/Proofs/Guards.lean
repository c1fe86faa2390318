import Dialogue.Proofs.Defined
import Dialogue.Proofs.Words
import Dialogue.Reply.Answer

/-! Conditions as they are written, and as they are read. A condition that is written out is read back; a
line that passes the check of its form is read as a condition only if the operator is a word of its own. -/
namespace Dialogue

namespace Text

/-! ### Words that are set off -/

section SetOff

variable {t u w : Text}

/-- The word is the first one of the text. There is white space in front of it, and something behind it that
begins with white space. -/
structure SetOff (w u t : Text) : Prop where
  name : IsName w
  behind : u ≠ []
  space : ∀ c ∈ u.head?, isSpace c = true
  front : ∃ s, s ≠ [] ∧ (∀ c ∈ s, isSpace c = true) ∧ t = s ++ (w ++ u)

theorem SetOff.unique {w' u' : Text} (h : SetOff w u t) (h' : SetOff w' u' t) : w = w' ∧ u = u' := by
  obtain ⟨s, -, hs, rfl⟩ := h.front
  obtain ⟨s', -, hs', heq⟩ := h'.front
  exact eq_of_words_append hs hs' h.name h'.name h.space h'.space heq

theorem SetOff.words_eq (h : SetOff w u t) : words t = w :: words u := by
  obtain ⟨s, -, hs, rfl⟩ := h.front
  rw [words_append_of_space hs, words_name_append h.name h.space]

theorem SetOff.head (h : SetOff w u t) : ∀ c ∈ t.head?, isSpace c = true := by
  obtain ⟨s, hne, hs, rfl⟩ := h.front
  obtain ⟨d, s, rfl⟩ := List.exists_cons_of_ne_nil hne
  rintro c ⟨⟩
  exact hs d List.mem_cons_self

end SetOff

end Text

open Text

namespace Comparison

theorem spellings_spec : ∀ e ∈ spellings, IsName e.1 ∧ ofText? e.1 = some e.2 ∧
    '\n' ∉ e.1 ∧ ¬ ("=>" : Text) <:+: e.1 := by
  decide +kernel

theorem mem_spellings {spelling : Text} {c : Comparison} (h : ofText? spelling = some c) :
    (spelling, c) ∈ spellings := by
  rw [ofText?, List.lookup_eq_some_iff] at h
  obtain ⟨a, b, hsplit, -⟩ := h
  rw [hsplit]
  exact List.mem_append_right _ List.mem_cons_self

theorem unique_of_mem {spelling : Text} {c d : Comparison} (hc : (spelling, c) ∈ spellings)
    (hd : (spelling, d) ∈ spellings) : c = d := by
  have hsame := (spellings_spec _ hc).2.1.symm.trans (spellings_spec _ hd).2.1
  exact Option.some.inj hsame

end Comparison

namespace Command

variable {t : Text}

theorem arrow_of_isGuardEnd (h : isGuardEnd t = true) : ("=>" : Text) <:+: t := by
  cases t with
  | nil => cases h
  | cons c t =>
    rw [isGuardEnd] at h
    split at h
    · rename_i hcut
      exact List.infix_cons (has_iff.mp (by rw [has, hcut]; rfl))
    · cases h

theorem arrow_of_hasOperator (h : hasOperator t = true) : ("=>" : Text) <:+: t := by
  induction t with
  | nil => cases h
  | cons c t ih =>
    rw [hasOperator, Bool.or_eq_true, List.any_eq_true] at h
    rcases h with ⟨op, -, hop⟩ | h
    · obtain ⟨u, hstarts, hend⟩ := (Option.any_eq_true _ _).mp hop
      rw [← List.isPrefixOf?_eq_some_iff_append_eq.mp hstarts]
      exact (arrow_of_isGuardEnd hend).trans (List.suffix_append op u).isInfix
    · exact List.infix_cons (ih h)

/-- Only lines with an arrow pass the check of conditions. -/
theorem arrow_of_check {settings : Settings} (h : check settings '*' t = none) : ("=>" : Text) <:+: t := by
  have hform : (!isCondition t) = false := of_firstFault h (!isCondition t, .conditionForm) List.mem_cons_self
  rw [Bool.not_eq_false'] at hform
  cases t with
  | nil => cases hform
  | cons c t => exact List.infix_cons (arrow_of_hasOperator hform)

end Command

namespace Condition

/-! ### Operators -/

section Operators

variable {t u before right : Text} {comparison : Comparison} {found : Comparison × Text}

theorem setOff_of_readOperator (h : readOperator t = some (comparison, right)) : ∃ spelling u,
    (spelling, comparison) ∈ Comparison.spellings ∧ SetOff spelling u t ∧ right = trim u := by
  rw [readOperator] at h
  split at h
  · rename_i hhead
    obtain ⟨⟨spelling, c⟩, hmem, hread⟩ := List.exists_of_findSome?_eq_some h
    obtain ⟨u, hstarts, hread⟩ := Option.bind_eq_some_iff.mp hread
    split at hread
    · rename_i hbehind
      cases hread
      rw [Bool.and_eq_true] at hbehind
      cases u with
      | nil => cases hbehind.1
      | cons d u =>
        have hspace : ∀ c ∈ (d :: u).head?, isSpace c = true := fun c hc => Option.some.inj hc ▸ hbehind.1
        cases t with
        | nil => cases hhead
        | cons c t =>
          obtain ⟨s, hs, hsplit⟩ := trimStart_eq (c :: t)
          rw [← List.isPrefixOf?_eq_some_iff_append_eq.mp hstarts] at hsplit
          have hname : IsName spelling := (Comparison.spellings_spec _ hmem).1
          refine ⟨spelling, d :: u, hmem, ⟨hname, List.cons_ne_nil _ _, hspace, s, ?_, hs, hsplit⟩, rfl⟩
          rintro rfl
          rw [List.nil_append] at hsplit
          have hsolid : isSpace c = false := isSpace_head_name hname (d :: u) c (by rw [← hsplit]; rfl)
          have hc : isSpace c = true := hhead
          rw [hc] at hsolid
          cases hsolid
    · cases hread
  · cases h

/-- An operator is read where it is a word of its own, and the second operand lies on one line. -/
theorem readOperator_of_setOff {spelling : Text} (hmem : (spelling, comparison) ∈ Comparison.spellings)
    (h : SetOff spelling u t) (hline : '\n' ∉ trimStart u) : readOperator t = some (comparison, trim u) := by
  have hsome : (readOperator t).isSome := by
    obtain ⟨s, hne, hs, rfl⟩ := h.front
    obtain ⟨c, s, rfl⟩ := List.exists_cons_of_ne_nil hne
    obtain ⟨d, u, rfl⟩ := List.exists_cons_of_ne_nil h.behind
    have hstart : trimStart (c :: s ++ (spelling ++ d :: u)) = spelling ++ d :: u := by
      rw [trimStart_append_space hs, trimStart_name_append h.name]
    have hc : (c :: s ++ (spelling ++ d :: u)).head?.any isSpace = true := hs c List.mem_cons_self
    rw [readOperator, if_pos hc, hstart, List.findSome?_isSome_iff]
    refine ⟨_, hmem, ?_⟩
    have hstarts : spelling.isPrefixOf? (spelling ++ d :: u) = some (d :: u) :=
      List.isPrefixOf?_eq_some_iff_append_eq.mpr rfl
    have hd : (d :: u).head?.any isSpace = true := h.space d rfl
    have hcontains : (trimStart (d :: u)).contains '\n' = false := by simpa using hline
    simp only [hstarts, Option.bind_eq_bind, Option.bind_some, hd, hcontains]
    rfl
  obtain ⟨⟨c, right⟩, hread⟩ := Option.isSome_iff_exists.mp hsome
  obtain ⟨spelling', u', hmem', h', rfl⟩ := setOff_of_readOperator hread
  obtain ⟨rfl, rfl⟩ := h.unique h'
  rw [hread, Comparison.unique_of_mem hmem hmem']

/-- White space on both sides is enough, where all of it is one line. -/
theorem readOperator_gap {c : Char} {spelling : Text} (hmem : (spelling, comparison) ∈ Comparison.spellings)
    (hc : isSpace c = true) (hne : u ≠ []) (hu : ∀ d ∈ u.head?, isSpace d = true) (hline : '\n' ∉ u) :
    readOperator (c :: (spelling ++ u)) = some (comparison, trim u) := by
  have hset : SetOff spelling u (c :: (spelling ++ u)) :=
    ⟨(Comparison.spellings_spec _ hmem).1, hne, hu, [c], List.cons_ne_nil _ _, by simpa using hc, rfl⟩
  exact readOperator_of_setOff hmem hset fun h => hline ((List.dropWhile_sublist _).mem h)

theorem split?_append (hne : before ≠ []) (hline : '\n' ∉ before) (hread : readOperator u = some found)
    (hfirst : ∀ b, b <:+ before → b ≠ [] → b ≠ before → readOperator (b ++ u) = none) :
    split? (before ++ u) = some (before, found) := by
  induction before with
  | nil => exact absurd rfl hne
  | cons c b ih =>
    rw [List.mem_cons, not_or] at hline
    rw [List.cons_append, split?, if_neg (Ne.symm hline.1)]
    by_cases hb : b = []
    · rw [hb, List.nil_append, hread]
    · have hnone : readOperator (b ++ u) = none :=
        hfirst b (List.suffix_cons c b) hb fun heq => by simpa using congrArg List.length heq
      have hrest : split? (b ++ u) = some (b, found) := by
        refine ih hb hline.2 fun d hd hdne hdb => ?_
        refine hfirst d (hd.trans (List.suffix_cons c b)) hdne ?_
        rintro rfl
        have hlength := hd.length_le
        rw [List.length_cons] at hlength
        omega
      rw [hnone, hrest]
      rfl

/-- The first operand is the shortest one. -/
theorem exists_of_split? (h : split? t = some (before, found)) :
    ∃ u, t = before ++ u ∧ before ≠ [] ∧ readOperator u = some found ∧
      ∀ a b, a ≠ [] → b ≠ [] → before = a ++ b → readOperator (b ++ u) = none := by
  induction t generalizing before with
  | nil => cases h
  | cons c t ih =>
    rw [split?] at h
    split at h
    · cases h
    · split at h
      · rename_i hread
        cases h
        refine ⟨t, rfl, List.cons_ne_nil _ _, hread, fun a b ha hb hsplit => ?_⟩
        have hlength := congrArg List.length hsplit
        rw [List.length_append, List.length_singleton] at hlength
        have hpositive := List.length_pos_iff.mpr ha
        have hpositive' := List.length_pos_iff.mpr hb
        omega
      · rename_i hnone
        obtain ⟨⟨b, found'⟩, hrest, heq⟩ := Option.map_eq_some_iff.mp h
        cases heq
        obtain ⟨u, rfl, -, hread, hshortest⟩ := ih hrest
        refine ⟨u, rfl, List.cons_ne_nil _ _, hread, fun a b' ha hb' hsplit => ?_⟩
        obtain ⟨d, a, rfl⟩ := List.exists_cons_of_ne_nil ha
        obtain ⟨-, rfl⟩ := List.cons.inj hsplit
        by_cases hnil : a = []
        · subst hnil
          exact hnone
        · exact hshortest a b' hnil hb' rfl

theorem isSome_split? (hne : before ≠ []) (hline : '\n' ∉ before) (hread : (readOperator u).isSome) :
    (split? (before ++ u)).isSome := by
  induction before with
  | nil => exact absurd rfl hne
  | cons c b ih =>
    rw [List.mem_cons, not_or] at hline
    rw [List.cons_append, split?, if_neg (Ne.symm hline.1)]
    split
    · rfl
    · rename_i hnone
      have hb : b ≠ [] := by
        rintro rfl
        rw [List.nil_append] at hnone
        rw [hnone] at hread
        cases hread
      rw [Option.isSome_map]
      exact ih hb hline.2

end Operators

/-! ### Conditions that are written out -/

/-- One side of a comparison, as it is written: on one line, and without an arrow in it. -/
structure IsOperand (t : Text) : Prop where
  neat : Neat t
  line : '\n' ∉ t
  arrow : ¬ ("=>" : Text) <:+: t

instance (t : Text) : Decidable (IsOperand t) :=
  decidable_of_iff (Neat t ∧ '\n' ∉ t ∧ ¬ ("=>" : Text) <:+: t)
    ⟨fun h => ⟨h.1, h.2.1, h.2.2⟩, fun h => ⟨h.neat, h.line, h.arrow⟩⟩

section Written

variable {s u spelling left right response : Text} {comparison : Comparison}

theorem not_arrow_append (hs : ¬ ("=>" : Text) <:+: s) (hu : ¬ ("=>" : Text) <:+: u) :
    ¬ ("=>" : Text) <:+: s ++ ' ' :: u := by
  intro h
  rcases infix_pair_append (by decide) h with h | h
  · exact hs h
  · exact hu (infix_of_append (s := [' ']) (by simp) h)

/-- The first arrow is the one behind the comparison. -/
theorem cut?_arrow (h : ¬ ("=>" : Text) <:+: s) (u : Text) :
    cut? "=>" ((s ++ [' ']) ++ ("=>" ++ u)) = some (s ++ [' '], u) := by
  rw [cut?_append_of_apart, cut?_self _ _ (by decide)]
  · exact congrArg some (Prod.ext (List.append_nil _) rfl)
  · intro p hp hne hstarts
    rcases List.suffix_concat_iff.mp hp with rfl | ⟨q, rfl, hq⟩
    · exact hne rfl
    · match q with
      | [] => exact absurd (List.cons_prefix_cons.mp hstarts).1 (by decide)
      | [_] =>
        have hsecond := (List.cons_prefix_cons.mp hstarts).2
        exact absurd (List.cons_prefix_cons.mp hsecond).1 (by decide)
      | c :: d :: q =>
        obtain ⟨rfl, hsecond⟩ := List.cons_prefix_cons.mp hstarts
        obtain ⟨rfl, -⟩ := List.cons_prefix_cons.mp hsecond
        exact h ((List.prefix_append ("=>" : Text) q).isInfix.trans hq.isInfix)

/-- No operator is read inside the first operand. -/
theorem readOperator_inside (hleft : Neat left) (hwords : ∀ w ∈ words left, Comparison.ofText? w = none)
    {b : Text} (hb : b <:+ left) (hne : b ≠ []) (hu : ∀ c ∈ u.head?, isSpace c = true) :
    readOperator (b ++ u) = none := by
  cases hread : readOperator (b ++ u) with
  | none => rfl
  | some found =>
    obtain ⟨spelling, v, hmem, hset, -⟩ := setOff_of_readOperator hread
    obtain ⟨a, rfl⟩ := hb
    -- The operand does not end in white space, so the word is still inside it.
    have hlast : isSpace (b.getLast hne) = false := by
      refine isSpace_getLast (t := a ++ b) ?_
      rw [hleft.trim, List.getLast?_append_of_ne_nil _ hne, List.getLast?_eq_some_getLast hne]
    have hsome : words b ≠ [] := words_ne_nil_of_mem (List.getLast_mem hne) hlast
    obtain ⟨first, rest, hfirst⟩ := List.exists_cons_of_ne_nil hsome
    have hall := words_append_of_head (t := b) hu
    rw [hset.words_eq, hfirst, List.cons_append] at hall
    obtain ⟨rfl, -⟩ := List.cons.inj hall
    obtain ⟨c, b, rfl⟩ := List.exists_cons_of_ne_nil hne
    have hspace : isSpace c = true := hset.head c rfl
    rw [words_cons_space hspace] at hfirst
    have hnone := hwords spelling (by
      rw [words_append_cons hspace, hfirst]
      exact List.mem_append_right _ List.mem_cons_self)
    rw [(Comparison.spellings_spec _ hmem).2.1] at hnone
    cases hnone

/-- A condition that is written out is read as it was written. -/
theorem ofText?_written (hspelling : (spelling, comparison) ∈ Comparison.spellings) (hleft : IsOperand left)
    (hright : IsOperand right) (hresponse : trim response = response)
    (hwords : ∀ w ∈ words left, Comparison.ofText? w = none) :
    ofText? (left ++ " " ++ spelling ++ " " ++ right ++ " => " ++ response) =
      some ⟨left, comparison, right, response⟩ := by
  obtain ⟨hname, -, -, harrow⟩ := Comparison.spellings_spec _ hspelling
  have hparts : left ++ " " ++ spelling ++ " " ++ right ++ " => " ++ response =
      (left ++ ' ' :: (spelling ++ ' ' :: right)) ++ [' '] ++ ("=>" ++ ' ' :: response) := by simp
  have hcut := cut?_arrow
    (not_arrow_append hleft.arrow (not_arrow_append harrow hright.arrow)) (' ' :: response)
  have hblank : ∀ c ∈ ([' '] : Text), isSpace c = true := List.forall_mem_singleton.mpr rfl
  have htest : trim (left ++ ' ' :: (spelling ++ ' ' :: right) ++ [' ']) =
      left ++ ' ' :: (spelling ++ ' ' :: right) := by
    rw [trim_append_space _ hblank, (hleft.neat.append (hname.neat.append hright.neat)).trim]
  have hhead : ∀ c ∈ (' ' :: right).head?, isSpace c = true := by
    rintro c ⟨⟩
    decide
  have hoperator : readOperator (' ' :: (spelling ++ ' ' :: right)) = some (comparison, right) := by
    rw [readOperator_gap hspelling (by decide) (List.cons_ne_nil _ _) hhead (by simp [hright.line]),
      hright.neat.trim_cons]
  have hsplit : split? (left ++ ' ' :: (spelling ++ ' ' :: right)) = some (left, comparison, right) :=
    split?_append hleft.neat.ne hleft.line hoperator fun b hb hne _ =>
      readOperator_inside hleft.neat hwords hb hne (by rintro c ⟨⟩; decide)
  have htrim : trim (' ' :: response) = response := by
    rw [trim, trimStart_cons_space (by decide)]
    exact hresponse
  rw [hparts, ofText?, hcut]
  simp only [Option.bind_eq_bind, Option.bind_some, htest, hsplit, hleft.neat.trim, htrim]

/-- Operators in the second operand and arrows in the response are read as they are written. -/
theorem ofText?_written_seams :
    (∀ w ∈ words "<get x> is", Comparison.ofText? w = none) ∧
      IsOperand "<get x> is" ∧ IsOperand "== 5 >=" ∧
      ofText? ("<get x> is" ++ " " ++ "<=" ++ " " ++ "== 5 >=" ++ " => " ++ "a => b\n<= c") =
        some ⟨"<get x> is", .le, "== 5 >=", "a => b\n<= c"⟩ :=
  have hwords : ∀ w ∈ words "<get x> is", Comparison.ofText? w = none := by decide +kernel
  have hleft : IsOperand "<get x> is" := by decide +kernel
  have hright : IsOperand "== 5 >=" := by decide +kernel
  ⟨hwords, hleft, hright, ofText?_written (by decide) hleft hright (by decide) hwords⟩

end Written

/-! ### Conditions that pass the check -/

/-- An operator is a word of the test, and neither the first one nor the last. -/
def Compares (test : Text) : Prop := ∃ w ∈ (words test).tail.dropLast, (Comparison.ofText? w).isSome

instance (test : Text) : Decidable (Compares test) :=
  inferInstanceAs (Decidable (∃ w ∈ (words test).tail.dropLast, (Comparison.ofText? w).isSome))

/-- The condition is what the words of the test say. Its operator is the first one behind the first word. -/
structure Says (test : Text) (condition : Condition) : Prop where
  spelled : ∃ spelling, Comparison.ofText? spelling = some condition.comparison ∧
    words test = words condition.left ++ spelling :: words condition.right
  left : words condition.left ≠ []
  right : words condition.right ≠ []
  first : ∀ w ∈ (words condition.left).tail, Comparison.ofText? w = none

section Checked

variable {t test before right response : Text} {comparison : Comparison} {condition : Condition}

theorem mem_inner_iff {α : Type} {l : List α} {x : α} :
    x ∈ l.tail.dropLast ↔ ∃ a b, l = a ++ x :: b ∧ a ≠ [] ∧ b ≠ [] := by
  constructor
  · intro h
    cases l with
    | nil => cases h
    | cons first inner =>
      rw [List.tail_cons] at h
      have hne : inner ≠ [] := by
        rintro rfl
        cases h
      obtain ⟨a, b, hinner⟩ := List.append_of_mem h
      refine ⟨first :: a, b ++ [inner.getLast hne], ?_, List.cons_ne_nil _ _, by simp⟩
      calc first :: inner
          = first :: (inner.dropLast ++ [inner.getLast hne]) := by rw [List.dropLast_append_getLast]
        _ = first :: a ++ x :: (b ++ [inner.getLast hne]) := by rw [hinner]; simp
  · rintro ⟨a, b, rfl, ha, hb⟩
    obtain ⟨first, a, rfl⟩ := List.exists_cons_of_ne_nil ha
    rw [List.cons_append, List.tail_cons, List.dropLast_append_of_ne_nil (List.cons_ne_nil _ _),
      List.dropLast_cons_of_ne_nil hb]
    exact List.mem_append_right _ List.mem_cons_self

theorem compares_iff : Compares test ↔ ∃ past spelling rest comparison,
    words test = past ++ spelling :: rest ∧ past ≠ [] ∧ rest ≠ [] ∧
      Comparison.ofText? spelling = some comparison := by
  constructor
  · rintro ⟨w, hmem, hw⟩
    obtain ⟨past, rest, hwords, hpast, hrest⟩ := mem_inner_iff.mp hmem
    obtain ⟨comparison, hsome⟩ := Option.isSome_iff_exists.mp hw
    exact ⟨past, w, rest, comparison, hwords, hpast, hrest, hsome⟩
  · rintro ⟨past, w, rest, comparison, hwords, hpast, hrest, hsome⟩
    exact ⟨w, mem_inner_iff.mpr ⟨past, rest, hwords, hpast, hrest⟩, Option.isSome_of_eq_some hsome⟩

theorem Says.compares (h : Says test condition) : Compares test := by
  obtain ⟨spelling, hspelling, hwords⟩ := h.spelled
  exact compares_iff.mpr ⟨_, spelling, _, _, hwords, h.left, h.right, hspelling⟩

theorem isSome_split?_of_compares (h : Compares test) (hline : '\n' ∉ test) : (split? (trim test)).isSome := by
  obtain ⟨past, spelling, rest, comparison, hwords, hpast, hrest, hspelling⟩ := compares_iff.mp h
  rw [← words_trim] at hwords
  have htrim : '\n' ∉ trim test := fun hmem => hline (mem_of_mem_trim hmem)
  obtain ⟨s, c, u, hsplit, hs, hc, -, hu, hspace⟩ := exists_gap hwords hpast
  rw [hsplit] at htrim ⊢
  simp only [List.mem_append, List.mem_cons, not_or] at htrim
  have hne : u ≠ [] := by
    rintro rfl
    exact hrest hu.symm
  refine isSome_split? hs htrim.1 ?_
  rw [readOperator_gap (Comparison.mem_spellings hspelling) hc hne hspace htrim.2.2.2]
  rfl

/-- In front of the first operator that is read, only the first word can be one. -/
theorem ofText?_of_shortest {u : Text} (hne : u ≠ []) (hu : ∀ c ∈ u.head?, isSpace c = true)
    (hline : '\n' ∉ before ++ u)
    (hshortest : ∀ a b, a ≠ [] → b ≠ [] → before = a ++ b → readOperator (b ++ u) = none) :
    ∀ w ∈ (words before).tail, Comparison.ofText? w = none := by
  intro w hw
  cases hoperator : Comparison.ofText? w with
  | none => rfl
  | some other =>
    cases hwords : words before with
    | nil =>
      rw [hwords] at hw
      cases hw
    | cons first inner =>
      rw [hwords, List.tail_cons] at hw
      obtain ⟨a, b, rfl⟩ := List.append_of_mem hw
      rw [← List.cons_append] at hwords
      obtain ⟨s, c, r, rfl, hs, hc, -, -, hr⟩ := exists_gap hwords (List.cons_ne_nil _ _)
      -- A split in front of this word would leave less.
      have hnone := hshortest s (c :: (w ++ r)) hs (List.cons_ne_nil _ _) rfl
      have hspace : ∀ d ∈ (r ++ u).head?, isSpace d = true := by
        cases r with
        | nil => exact hu
        | cons d r => exact hr
      have hrest : '\n' ∉ r ++ u := fun hmem => hline (by
        rw [List.append_assoc, List.cons_append, List.append_assoc]
        exact List.mem_append_right _ (List.mem_cons_of_mem _ (List.mem_append_right _ hmem)))
      rw [List.cons_append, List.append_assoc,
        readOperator_gap (Comparison.mem_spellings hoperator) hc (by simp [hne]) hspace hrest] at hnone
      cases hnone

theorem says_of_split? (h : split? (trim test) = some (before, comparison, right)) (hline : '\n' ∉ test)
    (response : Text) : Says test ⟨trim before, comparison, right, response⟩ := by
  obtain ⟨u, hsplit, hbefore, hread, hshortest⟩ := exists_of_split? h
  have htrim : '\n' ∉ before ++ u := fun hmem => hline (mem_of_mem_trim (hsplit ▸ hmem))
  obtain ⟨spelling, v, hmem, hset, rfl⟩ := setOff_of_readOperator hread
  have hspelling := (Comparison.spellings_spec _ hmem).2.1
  have hwords : words test = words before ++ spelling :: words v := by
    rw [← words_trim, hsplit, words_append_of_head hset.head, hset.words_eq]
  have hleft : words before ≠ [] := by
    refine words_ne_nil_of_mem (List.head_mem hbefore) (isSpace_head (t := test) ?_)
    rw [hsplit, List.head?_append_of_ne_nil _ hbefore, List.head?_eq_some_head hbefore]
  have hright : words v ≠ [] := by
    refine words_ne_nil_of_mem (List.getLast_mem hset.behind) (isSpace_getLast (t := test) ?_)
    obtain ⟨s, -, -, rfl⟩ := hset.front
    rw [hsplit, ← List.append_assoc, ← List.append_assoc, List.getLast?_append_of_ne_nil _ hset.behind,
      List.getLast?_eq_some_getLast hset.behind]
  have hne : u ≠ [] := by
    rintro rfl
    cases hset.words_eq
  have hfirst := ofText?_of_shortest hne hset.head htrim hshortest
  refine ⟨⟨spelling, hspelling, ?_⟩, ?_, ?_, ?_⟩ <;> simp only [words_trim]
  · exact hwords
  · exact hleft
  · exact hright
  · exact hfirst

theorem ofText?_of_cut? (h : cut? "=>" t = some (test, response)) :
    ofText? t = (split? (trim test)).map fun (left, comparison, right) =>
      ⟨trim left, comparison, right, trim response⟩ := by
  rw [ofText?, h, Option.bind_eq_bind, Option.bind_some, Option.map_eq_bind]
  rfl

/-- A line that passes the check has an arrow, whatever continues it. What is in front of the arrow is tested
if it has an operator for a word, with something in front of it and something behind it. If it has none, the
line is passed over. -/
theorem tested_iff_compares {settings : Settings} (hline : '\n' ∉ t) (h : Command.check settings '*' t = none)
    (more : Text) : ∃ test response, cut? "=>" (t ++ more) = some (test, response) ∧
      (Compares test → ∃ condition, ofText? (t ++ more) = some condition ∧ Says test condition ∧
        condition.response = trim response ∧
        ∀ expand lines, Answer.firstCondition expand ((t ++ more) :: lines) = (do
          let left ← expand condition.left
          let right ← expand condition.right
          if condition.comparison.holds (operand left) (operand right) then return some condition.response
          Answer.firstCondition expand lines)) ∧
      (¬ Compares test → ofText? (t ++ more) = none ∧
        ∀ expand lines, Answer.firstCondition expand ((t ++ more) :: lines) =
          Answer.firstCondition expand lines) := by
  obtain ⟨test, response, hcut⟩ : ∃ test response, cut? "=>" t = some (test, response) := by
    cases hcut : cut? "=>" t with
    | none => exact absurd (Command.arrow_of_check h) (cut?_eq_none_iff.mp hcut)
    | some parts => exact ⟨parts.1, parts.2, rfl⟩
  have htest : '\n' ∉ test := fun hmem => hline ((subset_of_cut? hcut).1 hmem)
  have hwhole := cut?_append hcut more
  refine ⟨test, response ++ more, hwhole, fun hcompares => ?_, fun hcompares => ?_⟩
  · obtain ⟨⟨before, comparison, right⟩, hsplit⟩ :=
      Option.isSome_iff_exists.mp (isSome_split?_of_compares hcompares htest)
    have hread : ofText? (t ++ more) = some ⟨trim before, comparison, right, trim (response ++ more)⟩ := by
      rw [ofText?_of_cut? hwhole, hsplit]
      rfl
    refine ⟨_, hread, says_of_split? hsplit htest _, rfl, fun expand lines => ?_⟩
    rw [Answer.firstCondition, hread]
  · have hread : ofText? (t ++ more) = none := by
      rw [ofText?_of_cut? hwhole]
      cases hsplit : split? (trim test) with
      | none => rfl
      | some found => exact absurd (says_of_split? hsplit htest []).compares hcompares
    refine ⟨hread, fun expand lines => ?_⟩
    rw [Answer.firstCondition, hread]

end Checked

def adulthood : Text := "<get age> >= 18 => You are an adult."

theorem adulthood_tested : '\n' ∉ adulthood ∧ Command.check .basic '*' adulthood = none ∧
    ∃ condition, ofText? (adulthood ++ " Welcome.") = some condition ∧
      condition.response = "You are an adult. Welcome." := by
  have hline : '\n' ∉ adulthood := by decide
  have hcheck : Command.check .basic '*' adulthood = none := by decide
  obtain ⟨test, response, hcut, htested, -⟩ := tested_iff_compares hline hcheck " Welcome."
  have hparts : cut? "=>" (adulthood ++ " Welcome.") =
      some (("<get age> >= 18 " : Text), (" You are an adult. Welcome." : Text)) := by decide
  rw [hcut] at hparts
  cases hparts
  obtain ⟨condition, hread, -, hresponse, -⟩ := htested (by decide +kernel)
  exact ⟨hline, hcheck, condition, hread, hresponse.trans (by decide +kernel)⟩

/-- Other lines that pass the check and are passed over: letters of an operator stand inside a word, or an
arrow in front of the operator. -/
def untested : List Text := ["<get name> unseen => Who?", "a => b == b => Equal."]

/-- Without white space around it an operator is no word of its own. -/
theorem untested_pass : Command.check .basic '*' "5==5 => Equal." = none ∧ ofText? "5==5 => Equal." = none ∧
    ∀ t ∈ untested, Command.check .basic '*' t = none ∧ ofText? t = none := by
  decide +kernel

end Condition

end Dialogue
