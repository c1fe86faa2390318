import Dialogue.Proofs.Canonical
import Dialogue.Proofs.Defined
import Dialogue.Proofs.Settled

/-! Texts without the signs that stand around parked tags. Carrying out markup, up to the tags, puts only
such texts in the place of such texts. -/
namespace Dialogue.Markup

open Text

def Unparked (t : Text) : Prop := ∀ c ∈ t, c ≠ '\x00' ∧ c ≠ '\x01'

instance (t : Text) : Decidable (Unparked t) := List.decidableBAll (fun c => c ≠ '\x00' ∧ c ≠ '\x01') t

section Characters

variable {s t : Text}

theorem Unparked.mono (h : Unparked t) (hst : s ⊆ t) : Unparked s := fun c hc => h c (hst hc)

theorem unparked_append : Unparked (s ++ t) ↔ Unparked s ∧ Unparked t := List.forall_mem_append

theorem unparked_unpark (t : Text) : Unparked (unpark t) := by
  intro c hc
  obtain ⟨d, -, rfl⟩ := List.mem_map.mp hc
  split_ifs with hopen hclose
  · decide
  · decide
  · exact ⟨hopen, hclose⟩

/-- Where control characters are only those that were there, no sign of a parked tag is new. -/
theorem Unparked.of_control (h : Unparked t) (hst : ∀ c ∈ s, c.toNat < 0x20 → c ∈ t) : Unparked s := by
  intro c hc
  constructor
  · rintro rfl
    exact (h _ (hst _ hc (by decide))).1 rfl
  · rintro rfl
    exact (h _ (hst _ hc (by decide))).2 rfl

theorem Unparked.lower (h : Unparked t) : Unparked (lower t) :=
  h.of_control fun _ hc hcontrol => mem_of_control_mem_lower hcontrol hc

theorem Unparked.upper (h : Unparked t) : Unparked (upper t) := by
  refine h.of_control fun c hc hcontrol => ?_
  obtain ⟨d, hd, hmem⟩ := List.mem_flatMap.mp hc
  rw [eq_of_control_mem_upperChar hcontrol hmem]
  exact hd

theorem Unparked.capitalize (h : Unparked t) : Unparked (capitalize t) := by
  refine h.of_control fun c hc hcontrol => ?_
  cases t with
  | nil => exact hc
  | cons d t =>
    rw [Text.capitalize, List.mem_append] at hc
    rcases hc with hc | hc
    · rw [eq_of_control_mem_upperChar hcontrol hc]
      exact List.mem_cons_self
    · obtain ⟨e, he, hmem⟩ := List.mem_flatMap.mp hc
      rw [eq_of_control_mem_lowerChar hcontrol hmem]
      exact List.mem_cons_of_mem d he

theorem unparked_intercalate {sep : Text} {parts : List Text} (hsep : Unparked sep)
    (h : ∀ part ∈ parts, Unparked part) : Unparked (sep.intercalate parts) := by
  intro c hc
  rcases mem_of_mem_intercalate hc with hc | ⟨part, hpart, hc⟩
  · exact hsep c hc
  · exact h part hpart c hc

theorem Unparked.of_mem_pieces {sep : Char → Bool} (h : Unparked t) (hs : s ∈ pieces sep t) : Unparked s :=
  h.mono fun _ => mem_of_mem_pieces hs

theorem unparked_options (h : Unparked t) : ∀ option ∈ options t, Unparked option := by
  intro option hoption
  rw [options] at hoption
  split at hoption <;> exact h.of_mem_pieces hoption

end Characters

/-! ### Readers -/

section Readers

variable {read : Reader Text} {u found rest : Text}

/-- What is read and what comes after it stand in the text. -/
def Copies (read : Reader Text) : Prop := ∀ u found rest, read u = some (found, rest) → found ⊆ u ∧ rest ⊆ u

theorem copies_readBetween (opening closing : Text) (least : Nat) :
    Copies (readBetween opening closing least) := by
  intro u found rest h
  rw [readBetween] at h
  obtain ⟨inside, hopening, h⟩ := Option.bind_eq_some_iff.mp h
  obtain ⟨⟨body, after⟩, hcut, h⟩ := Option.bind_eq_some_iff.mp h
  cases h
  have hinside : inside ⊆ u := by
    rw [← List.isPrefixOf?_eq_some_iff_append_eq.mp hopening]
    exact List.subset_append_right _ _
  obtain ⟨hbody, hafter⟩ := subset_of_cut? hcut
  have hdrop := List.drop_subset least inside
  have hfound : inside.take least ++ body ⊆ inside :=
    List.append_subset.mpr ⟨List.take_subset least inside, List.Subset.trans hbody hdrop⟩
  exact ⟨List.Subset.trans hfound hinside, List.Subset.trans (List.Subset.trans hafter hdrop) hinside⟩

theorem copies_readBetweenOnLine (opening closing : Text) (least : Nat) :
    Copies (readBetweenOnLine opening closing least) := by
  intro u found rest h
  obtain ⟨⟨body, after⟩, hread, h⟩ := Option.bind_eq_some_iff.mp h
  dsimp only at h
  split at h
  · cases h
  · cases h
    exact copies_readBetween opening closing least u _ _ hread

theorem subset_of_find? (hread : Copies read) {t before : Text}
    (h : find? read t = some (before, found, rest)) : before ⊆ t ∧ found ⊆ t ∧ rest ⊆ t := by
  obtain ⟨u, rfl, hu⟩ := find?_eq_some h
  obtain ⟨hfound, hrest⟩ := hread u found rest hu
  have happend := List.subset_append_right before u
  exact ⟨List.subset_append_left before u, List.Subset.trans hfound happend, List.Subset.trans hrest happend⟩

theorem unparked_edit {α : Type} {read : Reader α} {f : α × Text → Text × Text} {t : Text}
    (hread : ∀ u found rest, Unparked u → read u = some (found, rest) → Unparked (f (found, rest)).1)
    (ht : Unparked t) : Unparked (edit (fun t => (read t).map f) t) := by
  refine forall_edit (fun u new rest hu h => ?_) ht
  obtain ⟨⟨found, after⟩, hfound, heq⟩ := Option.map_eq_some_iff.mp h
  have hnew : (f (found, after)).1 = new := congrArg Prod.fst heq
  rw [← hnew]
  exact hread u found after hu hfound

theorem unparked_replace {mark new t : Text} (hnew : Unparked new) (ht : Unparked t) :
    Unparked (replace mark new t) := forall_replace hnew ht

end Readers

/-! ### What comes before the tags -/

section Preparing

variable {t : Text}

theorem arrayName_of_readArray {u name rest : Text} (h : readArray u = some (name, rest)) :
    ∀ c ∈ name, isArrayNameChar c = true := by
  obtain ⟨inside, -, h⟩ := Option.bind_eq_some_iff.mp h
  split at h
  · cases h
  · cases h
    exact fun c hc => List.mem_takeWhile_imp hc
  · cases h

theorem unparked_arrays {arrays : Table (List Text)}
    (harrays : ∀ name members, arrays.find? name = some members → ∀ m ∈ members, Unparked m)
    (ht : Unparked t) : Unparked (expandArrays arrays t) := by
  refine unparked_edit (fun u name rest _ hread => ?_) ht
  show Unparked (memberChoice arrays name)
  rw [memberChoice]
  split
  · rename_i members hmembers
    have hjoined : Unparked (['|'].intercalate members) :=
      unparked_intercalate (by decide) (harrays name members hmembers)
    rw [unparked_append, unparked_append]
    exact ⟨⟨by decide, hjoined⟩, by decide⟩
  · have hname : Unparked name := by
      intro c hc
      have hchar := arrayName_of_readArray hread c hc
      constructor <;> rintro rfl <;> exact absurd hchar (by decide)
    rw [unparked_append, unparked_append]
    exact ⟨⟨by decide, hname⟩, by decide⟩

theorem unparked_shortcuts (ht : Unparked t) : Unparked (expandShortcuts t) := by
  have hall : ∀ s ∈ shortcuts, Unparked s.2 := by decide
  rw [expandShortcuts]
  generalize shortcuts = entries at hall
  induction entries generalizing t with
  | nil => exact ht
  | cons s entries ih =>
    rw [List.forall_mem_cons] at hall
    exact ih (unparked_replace hall.1 ht) hall.2

theorem unparked_star {stars : List Text} (hstars : ∀ s ∈ stars, Unparked s) (digits : Text) :
    Unparked (star stars digits) := by
  rw [star]
  split
  · rename_i s hget
    exact hstars s (List.mem_of_getElem? hget)
  · split <;> decide

theorem unparked_stars {stars botStars : List Text} (hstars : ∀ s ∈ stars, Unparked s)
    (hbotStars : ∀ s ∈ botStars, Unparked s) (ht : Unparked t) : Unparked (expandStars stars botStars t) := by
  refine unparked_edit (fun u found rest _ _ => ?_) ht
  obtain ⟨ofBot, digits⟩ := found
  show Unparked (star (if ofBot then botStars else stars) digits)
  split
  · exact unparked_star hbotStars digits
  · exact unparked_star hstars digits

theorem unparked_past {h : History} (hinputs : ∀ s ∈ h.inputs, Unparked s)
    (hreplies : ∀ s ∈ h.replies, Unparked s) (ht : Unparked t) : Unparked (expandPast h t) := by
  have hget : ∀ {said : List Text}, (∀ s ∈ said, Unparked s) →
      ∀ ago, Unparked (said.getD ago undefinedText) := by
    intro said hsaid ago
    rw [List.getD_eq_getElem?_getD]
    cases hago : said[ago]? with
    | none => decide
    | some s => exact hsaid s (List.mem_of_getElem? hago)
  refine unparked_edit (fun u found rest _ _ => ?_) ht
  obtain ⟨ofUser, ago⟩ := found
  show Unparked (if ofUser then h.input ago else h.reply ago)
  split
  · exact hget hinputs ago
  · exact hget hreplies ago

theorem unparked_escapes (ht : Unparked t) : Unparked (edit readEscape t) := by
  refine forall_edit (fun u new rest _ hread => ?_) ht
  unfold readEscape at hread
  split at hread
  all_goals cases hread
  all_goals
    show Unparked _
    decide

/-- All that a text is prepared with says nothing that looks like a parked tag. -/
structure Supplies (arrays : Table (List Text)) (stars botStars : List Text) (h : History) (user : Text) :
    Prop where
  arrays : ∀ name members, arrays.find? name = some members → ∀ m ∈ members, Unparked m
  stars : ∀ s ∈ stars, Unparked s
  botStars : ∀ s ∈ botStars, Unparked s
  inputs : ∀ s ∈ h.inputs, Unparked s
  replies : ∀ s ∈ h.replies, Unparked s
  user : Unparked user

theorem Supplies.prepare {arrays : Table (List Text)} {stars botStars : List Text} {h : History} {user : Text}
    (hs : Supplies arrays stars botStars h user) (ht : Unparked t) :
    Unparked (prepare arrays stars botStars h user t) := by
  have hshort := unparked_shortcuts (unparked_arrays hs.arrays ht)
  have hlight : Unparked (Weight.remove (expandShortcuts (expandArrays arrays t))) :=
    unparked_edit (fun _ _ _ _ _ => List.forall_mem_nil _) hshort
  have hstarred := unparked_stars hs.stars hs.botStars hlight
  exact unparked_escapes (unparked_replace hs.user (unparked_past hs.inputs hs.replies hstarred))

/-- Phrases that are put in have to be such texts. In a text in lower case, no slot is taken for one that
was there. -/
theorem unparked_format {table : Table Text} {takes : Text → Bool}
    (htable : ∀ e ∈ table.entries, Unparked e.2) (block : Block) (ht : Unparked t) :
    Unparked (block.format ((Substitution.ofTable table).keep takes) t) := by
  cases block with
  | person =>
    have hletter : 'P' ∉ lower t := fun h => absurd (isLow_of_mem_lower h) (by decide)
    intro c hc
    rcases Substitution.mem_of_mem_apply hletter hc with hc | ⟨e, he, hc⟩
    · exact ht.lower c hc
    · exact htable e he c hc
  | formal =>
    refine unparked_intercalate (by decide) fun part hpart => ?_
    obtain ⟨piece, hpiece, rfl⟩ := List.mem_map.mp hpart
    exact (ht.of_mem_pieces hpiece).capitalize
  | sentence => exact ht.capitalize
  | uppercase => exact ht.upper
  | lowercase => exact ht.lower

end Preparing

end Dialogue.Markup
