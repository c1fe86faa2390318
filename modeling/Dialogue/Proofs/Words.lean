import Dialogue.Proofs.Comments

/-! Texts without white space around them, and words, which have none in them either. -/
namespace Dialogue

open Text

/-- There is something to it, and no white space around it. -/
structure Neat (t : Text) : Prop where
  ne : t ≠ []
  trim : trim t = t

/-- There is something to it, and no white space in it. -/
structure IsName (t : Text) : Prop where
  ne : t ≠ []
  solid : ∀ c ∈ t, isSpace c = false

instance (t : Text) : Decidable (Neat t) :=
  decidable_of_iff (t ≠ [] ∧ Text.trim t = t) ⟨fun h => ⟨h.1, h.2⟩, fun h => ⟨h.ne, h.trim⟩⟩

theorem isName_iff {t : Text} : IsName t ↔ t ≠ [] ∧ (t.all (!isSpace ·)) = true := by
  simp only [List.all_eq_true, Bool.not_eq_true']
  exact ⟨fun h => ⟨h.ne, h.solid⟩, fun h => ⟨h.1, h.2⟩⟩

-- Asked of all members, so that no instance for all characters is tried.
instance (t : Text) : Decidable (IsName t) := decidable_of_iff _ isName_iff.symm

namespace Neat

variable {t : Text}

theorem trimEnd (h : Neat t) : trimEnd t = t := by
  obtain ⟨s, -, hs⟩ := trimEnd_eq t
  rw [h.trim] at hs
  exact ((trimEnd_prefixes t).eq_of_length_le (by rw [hs, List.length_append]; omega))

/-- A line of a command is as it is printed. -/
theorem trim_line (h : Neat t) {sign : Char} (hsign : isSpace sign = false) :
    Text.trim (sign :: ' ' :: t) = sign :: ' ' :: t := by
  have hend : Text.trimEnd (' ' :: t) = ' ' :: t := by
    rw [← List.singleton_append, trimEnd_append, h.trimEnd, if_neg h.ne]
  have hstart : trimStart (sign :: ' ' :: t) = sign :: ' ' :: t :=
    List.dropWhile_cons_of_neg (by rw [hsign]; decide)
  rw [Text.trim, hstart, ← List.singleton_append, trimEnd_append_of_solid (by simpa using hsign), hend]

theorem trim_cons (h : Neat t) : Text.trim (' ' :: t) = t := by
  have hstart : trimStart (' ' :: t) = trimStart t :=
    trimStart_append_space (s := [' ']) (List.forall_mem_singleton.mpr rfl) t
  rw [Text.trim, hstart]
  exact h.trim

end Neat

theorem IsName.neat {t : Text} (h : IsName t) : Neat t := by
  refine ⟨h.ne, ?_⟩
  have hstart : trimStart t = t := by
    obtain ⟨c, u, rfl⟩ := List.exists_cons_of_ne_nil h.ne
    exact List.dropWhile_cons_of_neg (by rw [h.solid c List.mem_cons_self]; decide)
  have hend := trimEnd_append_of_solid h.solid []
  rw [List.append_nil] at hend
  rw [trim, hstart, hend]
  exact List.append_nil t

theorem Neat.append {a b : Text} (ha : Neat a) (hb : Neat b) : Neat (a ++ ' ' :: b) := by
  refine ⟨by simp, ?_⟩
  have hstart := trimStart_trim_append a (' ' :: b) (by rw [ha.trim]; exact ha.ne)
  rw [ha.trim] at hstart
  have hblank : Text.trimEnd (' ' :: b) = ' ' :: b := by
    rw [← List.singleton_append, trimEnd_append, hb.trimEnd, if_neg hb.ne]
  rw [Text.trim, hstart, trimEnd_append, hblank, if_neg (List.cons_ne_nil _ _)]

/-- With a blank between them they are one text without white space around it. -/
theorem Neat.intercalate {ts : List Text} (hne : ts ≠ []) (h : ∀ t ∈ ts, Neat t) :
    Neat ([' '].intercalate ts) := by
  induction ts with
  | nil => exact absurd rfl hne
  | cons t ts ih =>
    obtain ⟨ht, hts⟩ := List.forall_mem_cons.mp h
    cases ts with
    | nil => rwa [List.intercalate_singleton]
    | cons next ts =>
      have happend := ht.append (ih (List.cons_ne_nil _ _) hts)
      rw [List.intercalate_cons_cons, List.append_assoc]
      exact happend

theorem neat_intercalate {names : List Text} (hne : names ≠ []) (h : ∀ name ∈ names, IsName name) :
    Neat ([' '].intercalate names) := .intercalate hne fun name hname => (h name hname).neat

section Joining

variable {α β : Type} {sep : List α} {parts : List (List α)}

theorem intercalate_cons (sep part : List α) (parts : List (List α)) :
    sep.intercalate (part :: parts) = part ++ parts.flatMap (sep ++ ·) := by
  induction parts generalizing part with
  | nil => rw [List.intercalate_singleton, List.flatMap_nil, List.append_nil]
  | cons next parts ih =>
    rw [List.intercalate_cons_cons, ih, List.flatMap_cons, List.append_assoc, List.append_assoc]

theorem flatMap_intercalate (f : α → List β) (sep : List α) (parts : List (List α)) :
    (sep.intercalate parts).flatMap f = (sep.flatMap f).intercalate (parts.map (List.flatMap f)) := by
  cases parts with
  | nil => rfl
  | cons part parts =>
    simp only [List.map_cons, intercalate_cons, List.flatMap_append, List.flatMap_assoc, List.flatMap_map]

theorem map_intercalate (f : α → β) (sep : List α) (parts : List (List α)) :
    (sep.intercalate parts).map f = (sep.map f).intercalate (parts.map (List.map f)) := by
  cases parts with
  | nil => rfl
  | cons part parts =>
    simp only [List.map_cons, intercalate_cons, List.map_append, List.map_flatMap, List.flatMap_map]

end Joining

section Pieces

variable {sep : Char → Bool} {d : Char} {name : Text} {names : List Text}

theorem pieces_solid (h : ∀ c ∈ name, sep c = false) : pieces sep name = [name] := by
  induction name with
  | nil => rfl
  | cons c name ih =>
    rw [List.forall_mem_cons] at h
    rw [pieces, h.1, ih h.2]
    rfl

theorem pieces_solid_append (hd : sep d = true) (h : ∀ c ∈ name, sep c = false) (t : Text) :
    pieces sep (name ++ d :: t) = name :: pieces sep t := by
  induction name with
  | nil => rw [List.nil_append, pieces, if_pos hd]
  | cons c name ih =>
    rw [List.forall_mem_cons] at h
    rw [List.cons_append, pieces, h.1, ih h.2]
    rfl

/-- What is put together with a separating character comes apart there. -/
theorem pieces_intercalate (hd : sep d = true) (hne : names ≠ [])
    (h : ∀ name ∈ names, ∀ c ∈ name, sep c = false) : pieces sep ([d].intercalate names) = names := by
  induction names with
  | nil => exact absurd rfl hne
  | cons name names ih =>
    obtain ⟨hname, hnames⟩ := List.forall_mem_cons.mp h
    cases names with
    | nil => rw [List.intercalate_singleton, pieces_solid hname]
    | cons next names =>
      rw [List.intercalate_cons_cons, List.append_assoc, List.singleton_append,
        pieces_solid_append hd hname, ih (List.cons_ne_nil _ _) hnames]

theorem solid_of_mem_pieces {t piece : Text} (h : piece ∈ pieces sep t) :
    ∀ c ∈ piece, sep c = false := by
  induction t generalizing piece with
  | nil =>
    rw [List.mem_singleton.mp h]
    exact List.forall_mem_nil _
  | cons d t ih =>
    rw [pieces] at h
    split at h
    · rcases List.mem_cons.mp h with rfl | hrest
      · exact List.forall_mem_nil _
      · exact ih hrest
    · rename_i hd
      have hsolid : sep d = false := Bool.eq_false_iff.mpr hd
      split at h
      · rw [List.mem_singleton.mp h]
        simpa using hsolid
      · rename_i first rest hpieces
        rw [hpieces] at ih
        rcases List.mem_cons.mp h with rfl | hrest
        · exact List.forall_mem_cons.mpr ⟨hsolid, ih List.mem_cons_self⟩
        · exact ih (List.mem_cons_of_mem _ hrest)

end Pieces

/-- The words of names with a blank between them are the names. -/
theorem words_intercalate {names : List Text} (h : ∀ name ∈ names, IsName name) :
    words ([' '].intercalate names) = names := by
  by_cases hnil : names = []
  · rw [hnil]
    rfl
  · have hpieces : pieces isSpace ([' '].intercalate names) = names :=
      pieces_intercalate (by decide) hnil fun name hname => (h name hname).solid
    rw [words, hpieces, List.filter_eq_self]
    intro name hname
    simpa using (h name hname).ne

theorem isName_of_mem_words {t word : Text} (h : word ∈ words t) : IsName word where
  ne := by simpa using (List.mem_filter.mp h).2
  solid := solid_of_mem_pieces (List.mem_filter.mp h).1

/-- Words with single blanks between them have nothing around them. -/
theorem trim_of_collapse {t : Text} (h : collapse t = t) : trim t = t := by
  cases hwords : words t with
  | nil =>
    rw [← h, collapse, hwords]
    rfl
  | cons word rest =>
    have hne : words t ≠ [] := by
      rw [hwords]
      exact List.cons_ne_nil _ _
    rw [← h]
    exact (neat_intercalate hne fun word hword => isName_of_mem_words hword).trim

/-! ### Words and what is around them -/

section Split

variable {s t u w : Text} {c : Char} {ws past : List Text}

theorem pieces_append_cons {sep : Char → Bool} (hc : sep c = true) (s t : Text) :
    pieces sep (s ++ c :: t) = pieces sep s ++ pieces sep t := by
  induction s with
  | nil =>
    rw [List.nil_append, pieces.eq_2, if_pos hc]
    rfl
  | cons d s ih =>
    rw [List.cons_append, pieces, pieces, ih]
    split
    · rfl
    · obtain ⟨piece, rest, hpieces⟩ := List.exists_cons_of_ne_nil (pieces_ne_nil sep s)
      rw [hpieces]
      rfl

theorem trimStart_cons_space (hc : isSpace c = true) (t : Text) : trimStart (c :: t) = trimStart t :=
  List.dropWhile_cons_of_pos hc

theorem words_trim (t : Text) : words (trim t) = words t := by
  rw [trim, words_trimEnd, words_trimStart]

theorem words_append_cons (hc : isSpace c = true) (s t : Text) : words (s ++ c :: t) = words s ++ words t := by
  rw [words, pieces_append_cons hc, List.filter_append]
  rfl

theorem words_append_of_space (hs : ∀ c ∈ s, isSpace c = true) (t : Text) : words (s ++ t) = words t := by
  rw [← words_trimStart, trimStart_append_space hs, words_trimStart]

theorem words_eq_nil_iff : words t = [] ↔ ∀ c ∈ t, isSpace c = true := by
  constructor
  · intro h
    induction t with
    | nil => exact List.forall_mem_nil _
    | cons c t ih =>
      by_cases hc : isSpace c = true
      · rw [words_cons_space hc] at h
        exact List.forall_mem_cons.mpr ⟨hc, ih h⟩
      · obtain ⟨piece, rest, hpieces⟩ := List.exists_cons_of_ne_nil (pieces_ne_nil isSpace t)
        rw [words, pieces, if_neg hc, hpieces] at h
        simp at h
  · intro h
    have happend := words_append_of_space h []
    rwa [List.append_nil] at happend

theorem words_ne_nil_of_mem (h : c ∈ t) (hc : isSpace c = false) : words t ≠ [] := by
  intro hnil
  have hspace := words_eq_nil_iff.mp hnil c h
  rw [hc] at hspace
  cases hspace

/-- White space divides the words, wherever it begins. -/
theorem words_append_of_head (hu : ∀ c ∈ u.head?, isSpace c = true) : words (t ++ u) = words t ++ words u := by
  cases u with
  | nil => rw [List.append_nil]; exact (List.append_nil _).symm
  | cons d u =>
    have hd := hu d rfl
    rw [words_append_cons hd, words_cons_space hd]

theorem isSpace_head_name (hw : IsName w) (u : Text) : ∀ c ∈ (w ++ u).head?, isSpace c = false := by
  obtain ⟨d, w, rfl⟩ := List.exists_cons_of_ne_nil hw.ne
  rintro _ ⟨⟩
  exact hw.solid d List.mem_cons_self

theorem trimStart_name_append (hw : IsName w) (u : Text) : trimStart (w ++ u) = w ++ u := by
  obtain ⟨d, w, rfl⟩ := List.exists_cons_of_ne_nil hw.ne
  exact List.dropWhile_cons_of_neg (by rw [hw.solid d List.mem_cons_self]; decide)

/-- White space ends a word, or the text does. -/
theorem words_name_append (hw : IsName w) (hu : ∀ c ∈ u.head?, isSpace c = true) :
    words (w ++ u) = w :: words u := by
  have hself : words w = [w] := by
    rw [words, pieces_solid hw.solid]
    simp [hw.ne]
  rw [words_append_of_head hu, hself, List.singleton_append]

theorem isSpace_head_trimStart (t : Text) : ∀ c ∈ (trimStart t).head?, isSpace c = false := by
  intro c hc
  have hnot := List.head?_dropWhile_not isSpace t
  rw [trimStart] at hc
  rw [Option.mem_def.mp hc] at hnot
  simpa using hnot

theorem exists_name_append (hne : t ≠ []) (ht : ∀ c ∈ t.head?, isSpace c = false) :
    ∃ w u, t = w ++ u ∧ IsName w ∧ ∀ c ∈ u.head?, isSpace c = true := by
  refine ⟨t.takeWhile (!isSpace ·), t.dropWhile (!isSpace ·), List.takeWhile_append_dropWhile.symm,
    ⟨?_, fun c hc => by simpa using List.mem_takeWhile_imp hc⟩, fun c hc => ?_⟩
  · obtain ⟨c, t, rfl⟩ := List.exists_cons_of_ne_nil hne
    rw [List.takeWhile_cons_of_pos (by rw [ht c rfl]; rfl)]
    exact List.cons_ne_nil _ _
  · have hnot := List.head?_dropWhile_not (!isSpace ·) t
    rw [Option.mem_def.mp hc] at hnot
    simpa using hnot

theorem exists_of_words_cons (h : words t = w :: ws) : ∃ s u, t = s ++ (w ++ u) ∧
    (∀ c ∈ s, isSpace c = true) ∧ (∀ c ∈ u.head?, isSpace c = true) ∧ words u = ws := by
  obtain ⟨s, hs, hsplit⟩ := trimStart_eq t
  have hne : trimStart t ≠ [] := by
    intro hnil
    rw [← words_trimStart, hnil] at h
    cases h
  obtain ⟨first, u, heq, hfirst, hu⟩ := exists_name_append hne (isSpace_head_trimStart t)
  have hwords := words_name_append hfirst hu
  rw [← heq, words_trimStart, h] at hwords
  obtain ⟨rfl, rfl⟩ := List.cons.inj hwords
  exact ⟨s, u, by rw [← heq]; exact hsplit, hs, hu, rfl⟩

/-- A text that has a word falls apart around it. -/
theorem exists_of_words_append (h : words t = past ++ w :: ws) : ∃ s u, t = s ++ (w ++ u) ∧
    words s = past ∧ words u = ws ∧
    (∀ c ∈ s.getLast?, isSpace c = true) ∧ ∀ c ∈ u.head?, isSpace c = true := by
  induction past generalizing t with
  | nil =>
    obtain ⟨s, u, ht, hs, hu, hwords⟩ := exists_of_words_cons h
    exact ⟨s, u, ht, words_eq_nil_iff.mpr hs, hwords, fun c hc => hs c (List.mem_of_getLast? hc), hu⟩
  | cons first past ih =>
    have hmem : ∀ v ∈ words t, IsName v := fun v hv => isName_of_mem_words hv
    rw [h] at hmem
    have hfirst : IsName first := hmem first List.mem_cons_self
    have hw : IsName w := hmem w (by simp)
    obtain ⟨s, v, rfl, hs, hv, hwords⟩ := exists_of_words_cons h
    obtain ⟨a, u, rfl, hpast, hrest, hlast, hu⟩ := ih hwords
    have hne : a ≠ [] := by
      rintro rfl
      obtain ⟨d, w, rfl⟩ := List.exists_cons_of_ne_nil hw.ne
      have hspace := hv d rfl
      rw [isSpace_head_name hw u d rfl] at hspace
      cases hspace
    have hhead : ∀ c ∈ a.head?, isSpace c = true := by
      intro c hc
      refine hv c ?_
      rw [List.head?_append, Option.mem_def.mp hc]
      rfl
    refine ⟨s ++ (first ++ a), u, by simp, ?_, hrest, fun c hc => hlast c ?_, hu⟩
    · rw [words_append_of_space hs, words_name_append hfirst hhead, hpast]
    · rwa [← List.append_assoc, List.getLast?_append_of_ne_nil _ hne] at hc

/-- In front of a word that is not the first one there is white space. -/
theorem exists_gap (h : words t = past ++ w :: ws) (hpast : past ≠ []) : ∃ s c u, t = s ++ c :: (w ++ u) ∧
    s ≠ [] ∧ isSpace c = true ∧ words s = past ∧ words u = ws ∧ ∀ c ∈ u.head?, isSpace c = true := by
  obtain ⟨s, u, rfl, rfl, hrest, hlast, hu⟩ := exists_of_words_append h
  rcases List.eq_nil_or_concat s with rfl | ⟨s, c, rfl⟩
  · exact absurd rfl hpast
  · rw [List.concat_eq_append] at *
    have hc : isSpace c = true := hlast c (by simp)
    rw [words_concat_space hc] at *
    refine ⟨s, c, u, by simp, ?_, hc, rfl, hrest, hu⟩
    rintro rfl
    exact hpast rfl

/-- Where white space is in front of a word, there is one way to read it. -/
theorem eq_of_words_append {s' w' u' : Text}
    (hs : ∀ c ∈ s, isSpace c = true) (hs' : ∀ c ∈ s', isSpace c = true) (hw : IsName w) (hw' : IsName w')
    (hu : ∀ c ∈ u.head?, isSpace c = true) (hu' : ∀ c ∈ u'.head?, isSpace c = true)
    (h : s ++ (w ++ u) = s' ++ (w' ++ u')) : w = w' ∧ u = u' := by
  have htrim : w ++ u = w' ++ u' := calc
    w ++ u = trimStart (s ++ (w ++ u)) := by rw [trimStart_append_space hs, trimStart_name_append hw]
    _ = w' ++ u' := by rw [h, trimStart_append_space hs', trimStart_name_append hw']
  have hwords := words_name_append hw hu
  rw [htrim, words_name_append hw' hu'] at hwords
  obtain ⟨rfl, -⟩ := List.cons.inj hwords
  exact ⟨rfl, List.append_cancel_left htrim⟩

end Split

end Dialogue
