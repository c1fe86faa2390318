import Dialogue.Proofs.Brackets
import Dialogue.Proofs.Passes

/-! Texts that are the same after their markup has been carried out, because there is none left that
does anything. Unknown tags may stand in them: they are parked like all others, and come back. -/
namespace Dialogue

namespace Text

theorem find?_eq_some {α : Type} {read : Reader α} {t before rest : Text} {found : α}
    (h : find? read t = some (before, found, rest)) :
    ∃ u, t = before ++ u ∧ read u = some (found, rest) := by
  induction t generalizing before with
  | nil => cases h
  | cons c t ih =>
    rw [find?] at h
    split at h
    · rename_i hread
      cases h
      exact ⟨c :: t, rfl, hread⟩
    · obtain ⟨⟨before', found', rest'⟩, hfind, heq⟩ := Option.map_eq_some_iff.mp h
      cases heq
      obtain ⟨u, rfl, hu⟩ := ih hfind
      exact ⟨u, rfl, hu⟩

/-- Where a reader finds nothing, there is nothing to edit, whatever it would have put there. -/
theorem edit_of_find? {α : Type} {read : Reader α} {t : Text} (h : find? read t = none)
    (f : α × Text → Text × Text) : edit (fun t => (read t).map f) t = t :=
  edit_of_none fun u hu hne => by rw [find?_eq_none_iff.mp h u hu hne]; rfl

/-- Signs of ASCII that are no capital letters stay where they are. -/
theorem mem_lower {t : Text} {c : Char} (hascii : c.toNat < 0x80) (hsmall : c.toLower = c)
    (h : c ∈ t) : c ∈ lower t := by
  have hafter : ∀ before, c ∈ lowerAfter before t := by
    induction t with
    | nil => cases h
    | cons d t ih =>
      intro before
      rw [lowerAfter, List.mem_append]
      rcases List.mem_cons.mp h with rfl | h
      · have hsigma : c.toNat ≠ 0x3A3 := by omega
        rw [if_neg hsigma, lowerChar, if_pos hascii, hsmall]
        exact .inl (List.mem_singleton_self c)
      · exact .inr (ih h _)
  exact hafter []

end Text

namespace Variable

/-- Tags that are carried out. -/
def names : List Text := "bot" :: "env" :: "set" :: "get" :: Operation.all.map Prod.fst

theorem tag_of_unknown {body : Text} (h : (split body).1 ∉ names) (user : Text)
    (other : Text → Text) : tag user other body = pure (other body) := by
  have hne : ∀ name ∈ names, (split body).1 ≠ name := fun name hname heq => h (heq ▸ hname)
  have hlookup : Operation.all.lookup (split body).1 = none := by
    rw [List.lookup_eq_none_iff]
    intro e he
    have hoperation : e.1 ∈ Operation.all.map Prod.fst := List.mem_map_of_mem he
    have hmem : e.1 ∈ names := by
      simp only [names, List.mem_cons, hoperation, or_true]
    simpa using hne e.1 hmem
  rw [tag]
  dsimp only
  rw [if_neg (hne "bot" (by decide)), if_neg (hne "env" (by decide)), if_neg (hne "set" (by decide)),
    if_neg (hne "get" (by decide)), hlookup]

/-- The name of a tag goes up to a blank, or to the end of the tag. -/
theorem exists_of_split {body : Text} {name : Text} (h : (split body).1 = name) :
    ∃ n data, Text.lower n = name ∧ (body = n ∨ body = n ++ ' ' :: data) := by
  rw [split] at h
  split at h
  · rename_i n data hcut
    obtain ⟨c, hc, rfl⟩ := Text.eq_of_cutAt? hcut
    obtain rfl : c = ' ' := by simpa using hc
    exact ⟨n, data, h, .inr rfl⟩
  · exact ⟨body, [], h, .inl rfl⟩

theorem control_not_mem_names : ∀ name ∈ names, '\x00' ∉ name ∧ '\x01' ∉ name := by
  decide

end Variable

namespace Markup

open Text

/-- What a tag that is read has around it. -/
theorem eq_of_readTag {u body rest : Text} (h : readTag u = some (body, rest)) :
    u = '<' :: (body ++ '>' :: rest) := by
  unfold readTag at h
  split at h
  · rename_i c t
    split at h
    · cases h
    · split at h
      · rename_i rest' hrest
        cases h
        have hsplit := List.takeWhile_append_dropWhile (p := fun c => c ≠ '<' && c ≠ '>') (l := t)
        rw [hrest] at hsplit
        rw [List.cons_append, hsplit]
      · cases h
  · cases h

theorem unpark_append (s t : Text) : unpark (s ++ t) = unpark s ++ unpark t := List.map_append

/-- A parked tag comes back. -/
theorem unpark_park (body : Text) : unpark (park body) = unpark ('<' :: (body ++ ['>'])) := by
  simp [park, unpark]

/-- Some tag that is carried out begins in the text. -/
def OpensTag (t : Text) : Prop :=
  ∃ name last, '<' :: (name ++ [last]) <:+: t ∧ (last = ' ' ∨ last = '>') ∧
    lower name ∈ Variable.names

/-- What is parked hides no tag that is carried out. -/
theorem opensTag_of_unpark {t u before body rest : Text} (ht : unpark u = t)
    (hu : u = before ++ '<' :: (body ++ '>' :: rest))
    (hname : (Variable.split body).1 ∈ Variable.names) : OpensTag t := by
  obtain ⟨n, data, hlower, hbody⟩ := Variable.exists_of_split rfl
  rw [← hlower] at hname
  have hsame : unpark n = n := by
    obtain ⟨hopen, hclose⟩ := Variable.control_not_mem_names _ hname
    refine unpark_of_not_mem (fun h => hopen ?_) fun h => hclose ?_
    · exact mem_lower (by decide) (by decide) h
    · exact mem_lower (by decide) (by decide) h
  obtain ⟨last, after, hlast, hsplit⟩ : ∃ last after, (last = ' ' ∨ last = '>') ∧
      u = before ++ ('<' :: (n ++ [last]) ++ after) := by
    rcases hbody with rfl | rfl
    · exact ⟨'>', rest, .inr rfl, by simp [hu]⟩
    · exact ⟨' ', data ++ '>' :: rest, .inl rfl, by simp [hu]⟩
  refine ⟨n, last, ⟨unpark before, unpark after, ?_⟩, hlast, hname⟩
  have hmark : unpark ('<' :: (n ++ [last])) = '<' :: (n ++ [last]) := by
    have hend : unpark [last] = [last] := by
      rcases hlast with rfl | rfl <;> decide
    calc unpark ('<' :: (n ++ [last])) = '<' :: (unpark n ++ unpark [last]) := by simp [unpark]
      _ = '<' :: (n ++ [last]) := by rw [hsame, hend]
  rw [← ht, hsplit, unpark_append, unpark_append, hmark, List.append_assoc]

/-- Carrying out the markup of the text changes nothing and does nothing. -/
structure Settled (t : Text) : Prop where
  inert : Inert t
  arrays : find? readArray t = none
  shortcuts : ∀ s ∈ shortcuts, ¬ s.1 <:+: t
  weights : Weight.first? t = none
  stars : find? readStar t = none
  past : find? readPast t = none
  user : ¬ "<id>" <:+: t
  escapes : find? readEscape t = none
  calls : ¬ "<call>" <:+: t ∧ ¬ "</call>" <:+: t
  tags : ¬ OpensTag t

/-- A text without angle brackets, backslashes and braces says just itself, and so it does with round
brackets that name no array. -/
theorem settled_of_not_mem {t : Text} (hangle : '<' ∉ t) (hback : '\\' ∉ t) (hcurly : '\x7b' ∉ t)
    (harray : find? readArray t = none) (hparks : '\x00' ∉ t ∧ '\x01' ∉ t) : Settled t := by
  have hnot : ∀ mark : Text, mark.head? = some '<' → ¬ mark <:+: t :=
    fun mark hmark hwithin => hangle (hwithin.subset (List.mem_of_head? hmark))
  exact {
    inert := inert_of_not_mem hcurly hparks
    arrays := harray
    shortcuts := fun s hs => hnot s.1 (head?_shortcuts s hs)
    weights := Weight.first?_of_not_mem hcurly
    stars := find?_of_not_mem opens_readStar hangle
    past := find?_of_not_mem opens_readPast hangle
    user := hnot _ rfl
    escapes := find?_of_not_mem opens_readEscape hback
    calls := ⟨hnot _ rfl, hnot _ rfl⟩
    tags := fun ⟨_, _, hwithin, _⟩ => hangle (hwithin.subset List.mem_cons_self) }

namespace Settled

variable {t : Text}

theorem prepare (h : Settled t) (arrays : Table (List Text)) (stars botStars : List Text)
    (history : History) (user : Text) : prepare arrays stars botStars history user t = t := by
  have hshortcuts : expandShortcuts t = t := expandShortcuts_of_not_infix h.shortcuts
  have hescapes : edit readEscape t = t := edit_of_none (find?_eq_none_iff.mp h.escapes)
  rw [Markup.prepare, expandArrays, edit_of_find? h.arrays, hshortcuts, Weight.remove_of_none h.weights,
    expandStars, edit_of_find? h.stars, expandPast, edit_of_find? h.past,
    replace_of_not_infix h.user, hescapes]

theorem hideCalls (h : Settled t) : hideCalls t = t := by
  rw [Markup.hideCalls, replace_of_not_infix h.calls.1, replace_of_not_infix h.calls.2]

end Settled

end Markup

/-! ### Carrying out what is settled -/

namespace Expansion

open Text Markup Answering

variable {t : Text}

/-- Tags are parked one after the other, and what they stand in comes back in the end. -/
theorem editEach_readTag (h : ¬ OpensTag t) (user : Text) (limit : Nat) {u : Text}
    (hu : unpark u = t) :
    ∃ v, editEach readTag (Variable.tag user park) limit u = pure v ∧ unpark v = t := by
  induction limit generalizing u with
  | zero => exact ⟨u, rfl, hu⟩
  | succ limit ih =>
    rw [editEach]
    split
    · exact ⟨u, rfl, hu⟩
    · rename_i before body rest hfind
      obtain ⟨tail, rfl, hread⟩ := find?_eq_some hfind
      obtain rfl := eq_of_readTag hread
      have hunknown : (Variable.split body).1 ∉ Variable.names :=
        fun hname => h (opensTag_of_unpark hu rfl hname)
      have hparked : unpark (before ++ park body ++ rest) = t := by
        rw [← hu, unpark_append, unpark_append, unpark_park, ← unpark_append, ← unpark_append]
        simp
      rw [Variable.tag_of_unknown hunknown, pure_bind]
      exact ih hparked

theorem carryOutTags_of_settled (h : Settled t) (user : Text) : carryOutTags user t = pure t := by
  obtain ⟨v, hedit, hv⟩ := editEach_readTag h.tags user tagLimit (unpark_of_inert h.inert)
  rw [carryOutTags, h.hideCalls, hedit, pure_bind, hv]

theorem find?_readCall (h : Settled t) : find? readCall t = none := by
  refine find?_eq_none_iff.mpr fun u hu _ => ?_
  show readBetween _ _ _ u = none
  rw [readBetween]
  cases hopening : List.isPrefixOf? ("<call>" : Text) u with
  | none => rfl
  | some rest =>
    have hstarts : ("<call>" : Text) <+: u := ⟨rest, List.isPrefixOf?_eq_some_iff_append_eq.mp hopening⟩
    exact absurd (hstarts.isInfix.trans hu.isInfix) h.calls.1

/-- What is carried out of a text after its random choices have been made. -/
def afterChoices (a : Asking) (call : Answerer) (turn : Turn) (t : Text) : Answering Text := do
  let limit := a.playbook.depth
  let t ← editEach readHotLoad hotLoad limit t
  let t ← formatBlocks a.playbook.person limit Block.all t
  let t ← carryOutTags a.user t
  let t ← editEach readTopic (enterTopic a.user) limit t
  let t ← editEach readRedirect (redirect call turn) limit t
  editEach readCall (callObject a.user) limit (showCalls t)

theorem run_expand (a : Asking) (call : Answerer) (turn : Turn) (t : Text) (p : Process) :
    (expand a call turn t).run.run p =
      (editEach (readBlock "random" 0) pick a.playbook.depth
        (Markup.prepare a.playbook.arrays turn.stars turn.botStars (p.bot.roster.history a.user)
          a.user t) >>= afterChoices a call turn).run.run p := rfl

theorem afterChoices_of_settled (h : Settled t) (a : Asking) (call : Answerer) (turn : Turn) :
    afterChoices a call turn t = pure t := by
  have hload : readHotLoad = Directive.hotLoad.read := rfl
  have hredirect : readRedirect = Directive.redirect.read := rfl
  rw [afterChoices, hload, editEach_of_inert (by decide) h.inert, pure_bind,
    formatBlocks_of_inert h.inert, pure_bind,
    carryOutTags_of_settled h, pure_bind,
    editEach_of_none (find?_readTopic h.inert), pure_bind,
    hredirect, editEach_of_inert (by decide) h.inert, pure_bind,
    showCalls_of_inert h.inert, editEach_of_none (find?_readCall h)]

/-- Whoever is answered, and whatever has happened before. -/
theorem run_expand_settled (h : Settled t) (a : Asking) (call : Answerer) (turn : Turn) (p : Process) :
    (expand a call turn t).run.run p = (.ok t, p) := by
  have hrandom : readBlock "random" 0 = Directive.random.read := rfl
  rw [run_expand, h.prepare, hrandom, editEach_of_inert (by decide) h.inert, pure_bind,
    afterChoices_of_settled h]
  rfl

end Expansion

end Dialogue
