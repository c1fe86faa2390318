import Dialogue.Proofs.Chunks
import Dialogue.Proofs.Meaning

/-! How many stars a match has. For each sign of a pattern that opens something remembered there is one
star, which is what that part of the pattern stands for in the message, or nothing if the part is not
taken. The surroundings of the pattern do not change that. -/
namespace Dialogue.Pattern

open Text

section Matching

variable {s : Surroundings} {pattern : Text} {m : Matcher}

theorem openersFrom_subset {spot : Spot} {squares : Nat} {t : Text} {c : Char}
    (h : c ∈ openersFrom spot squares t) : c ∈ t ∧ isOpener c = true := by
  fun_induction openersFrom spot squares t with
  | case1 => cases h
  | case10 squares t spot hescaped htag d hname _ _ _ _ _ ih =>
    rcases List.mem_append.mp h with hhere | hlater
    · split at hhere
      · rename_i hopener
        rw [List.mem_singleton.mp hhere]
        exact ⟨List.mem_cons_self, hopener.2⟩
      · cases hhere
    · exact ⟨List.mem_cons_of_mem _ (ih hlater).1, (ih hlater).2⟩
  | _ => rename_i ih; exact ⟨List.mem_cons_of_mem _ (ih h).1, (ih h).2⟩

/-- A pattern that says its own words opens nothing. -/
theorem openers_of_isVerbatim {t : Text} (h : isVerbatim t = true) : openers t = [] := by
  rw [List.eq_nil_iff_forall_not_mem]
  intro c hc
  obtain ⟨hmem, hopener⟩ := openersFrom_subset hc
  rw [isVerbatim, Bool.not_eq_true', List.any_eq_false] at h
  have hsigns := h c hmem
  simp only [isOpener, Bool.or_eq_true, beq_iff_eq] at hopener
  rcases hopener with ((rfl | rfl) | rfl) | rfl
  all_goals exact absurd rfl hsigns

/-- A star alone is not changed by taking weights away. -/
theorem strip_star (h : trim pattern = ['*']) : Weight.strip pattern = ['*'] := by
  have hcurly : '\x7b' ∉ pattern := by
    intro hmem
    have hstar := mem_trim hmem (by decide)
    rw [h] at hstar
    cases List.mem_singleton.mp hstar
  rw [Weight.strip_of_none (Weight.first?_of_not_mem hcurly), h]

/-- A pattern that is not refused is matched alike whether or not the bot is strict. -/
theorem ofPattern_of_strict (h : Matcher.ofPattern s true pattern = .ok m) (strict : Bool) :
    Matcher.ofPattern s strict pattern = .ok m := by
  rw [Matcher.ofPattern] at h ⊢
  split at h
  · rename_i hverbatim
    rw [if_pos hverbatim]
    exact h
  · rename_i hsigns
    rw [if_neg hsigns]
    split at h
    · rename_i hstar
      rw [if_pos hstar]
      exact h
    · rename_i hstar
      rw [if_neg hstar]
      cases hm : Matcher.ofSigns s (Weight.strip pattern) with
      | ok m' =>
        rw [hm] at h
        exact h
      | error cause =>
        rw [hm] at h
        cases h

/-- What a pattern with signs means, if it is not refused. -/
theorem of_ofSigns {body : Text} (h : Matcher.ofSigns s body = .ok m) :
    ∃ is, Pattern.items body = .ok is ∧ m = .expression (expression s is) := by
  rw [Matcher.ofSigns] at h
  cases hitems : Pattern.items body with
  | error cause =>
    rw [hitems] at h
    cases h
  | ok is =>
    rw [hitems, Except.mapError] at h
    dsimp only [bind, Except.bind] at h
    split at h
    · cases h
    · cases h
      exact ⟨is, rfl, rfl⟩

/-- A pattern that is not refused is its own text, the star alone, or what its items mean. -/
theorem of_ofPattern (h : Matcher.ofPattern s true pattern = .ok m) :
    (isVerbatim (Weight.strip pattern) = true ∧ m = .exactly (collapse (Weight.strip pattern))) ∨
    (trim pattern = ['*'] ∧ m = .line) ∨
    ∃ is, items (Weight.strip pattern) = .ok is ∧ m = .expression (expression s is) := by
  rw [Matcher.ofPattern] at h
  split at h
  · rename_i hverbatim
    cases h
    exact .inl ⟨hverbatim, rfl⟩
  · split at h
    · rename_i hstar
      cases h
      exact .inr (.inl ⟨hstar, rfl⟩)
    · split at h
      · rename_i m' hsigns
        cases h
        exact .inr (.inr (of_ofSigns hsigns))
      · cases h

/-- In a match of a pattern there is something to be found for each of its signs. -/
theorem found_of_captures (h : Matcher.ofPattern s true pattern = .ok m) {message : Text}
    {stars : List Text} (hstars : m.captures message = some stars) :
    ∃ found, Reads s pattern message found ∧ found.map Prod.fst = openers (Weight.strip pattern) ∧
      found.map Prod.snd = stars := by
  obtain ⟨hverbatim, rfl⟩ | ⟨hstar, rfl⟩ | ⟨is, his, rfl⟩ := of_ofPattern h
  · obtain ⟨rfl, rfl⟩ := Matcher.captures_exactly.mp hstars
    exact ⟨[], .verbatim hverbatim, (openers_of_isVerbatim hverbatim).symm, rfl⟩
  · rw [Matcher.captures] at hstars
    split at hstars
    · cases hstars
    · rename_i hline
      cases hstars
      refine ⟨[('*', message)], .line hstar (by simpa using hline), ?_, rfl⟩
      rw [strip_star hstar]
      rfl
  · obtain ⟨found, hreads, hfst, hsnd⟩ := takesAll_of_match? hstars
    exact ⟨found, .items his hreads, hfst.trans (openersOf_items his), hsnd⟩

/-- A pattern that can be matched has a star for each sign that opens something, however it is matched
and whatever stands in the place of its variables and arrays: that which is found for the sign. -/
theorem stars_of_pattern (h : Matcher.ofPattern s true pattern = .ok m) :
    (∀ strict, Matcher.ofPattern s strict pattern = .ok m) ∧
    ∀ message stars, m.captures message = some stars →
      stars.length = (openers (Weight.strip pattern)).length ∧
      ∃ found, Reads s pattern message found ∧
        found.map Prod.fst = openers (Weight.strip pattern) ∧ found.map Prod.snd = stars := by
  refine ⟨ofPattern_of_strict h, fun message stars hstars => ?_⟩
  obtain ⟨found, hreads, hfst, hsnd⟩ := found_of_captures h hstars
  refine ⟨?_, found, hreads, hfst, hsnd⟩
  rw [← hfst, ← hsnd, List.length_map, List.length_map]

/-- Greetings of two kinds, the second one of which has a name in it. -/
def twofold : Text := "(hello|bye *) [my|dear] _"

/-- The star of the name is there, and empty, though nobody is named. -/
theorem twofold_stars : openers (Weight.strip twofold) = ['(', '*', '_'] ∧
    ∃ m, Matcher.ofPattern {} true twofold = .ok m ∧
      m.captures "hello my friend" = some (["hello", "", "friend"] : List Text) ∧
      ∃ found, Reads {} twofold "hello my friend" found ∧
        found.map Prod.fst = openers (Weight.strip twofold) ∧
          found.map Prod.snd = (["hello", "", "friend"] : List Text) := by
  have hcaptures : (Matcher.ofPattern {} true twofold).map (·.captures "hello my friend") =
      .ok (some (["hello", "", "friend"] : List Text)) := by
    decide +kernel
  cases hm : Matcher.ofPattern {} true twofold with
  | error cause =>
    rw [hm] at hcaptures
    cases hcaptures
  | ok m =>
    rw [hm, Except.map, Except.ok.injEq] at hcaptures
    exact ⟨by decide +kernel, m, rfl, hcaptures, ((stars_of_pattern hm).2 _ _ hcaptures).2⟩

/-- A thousand signs, and no star: so many are not matched but by the pattern itself. -/
theorem underscores_without_stars : Pattern.check (Chunk.written Chunk.underscores) = .ok () ∧
    (openers (Weight.strip (Chunk.written Chunk.underscores))).length = 1000 ∧
      (Matcher.ofPattern {} false (Chunk.written Chunk.underscores)).map (fun m =>
        m.captures (Chunk.written Chunk.underscores)) = .ok (some []) := by
  have hplain := Chunk.isPlain_underscores
  refine ⟨?_, ?_, ?_⟩
  · rw [Pattern.check, Chunk.strip_written hplain, Chunk.items_written hplain]
    rfl
  · rw [Chunk.strip_written hplain, Chunk.openers_written hplain, Chunk.underscores,
      List.length_flatMap, List.map_replicate, List.sum_replicate_nat]
    rfl
  · obtain ⟨l, hmatcher⟩ := Chunk.ofPattern_underscores
    rw [hmatcher, if_neg Bool.false_ne_true, Except.map, Matcher.captures, if_pos rfl]

end Matching

end Dialogue.Pattern
