import Dialogue.Proofs.Tags

/-! Tags inside of tags. They are carried out by looking for the first tag without another one inside, as
long as there is one, and that comes to evaluating the text from left to right, inner tags first. -/
namespace Dialogue

open Text Answering Markup

/-- Well nested tags among other characters. A tag does not begin with another one. -/
inductive Forest where
  | nil
  | char (c : Char) (rest : Forest)
  | tag (first : Char) (body rest : Forest)
  deriving DecidableEq, Repr

def Unbracketed (t : Text) : Prop := '<' ∉ t ∧ '>' ∉ t

instance (t : Text) : Decidable (Unbracketed t) := inferInstanceAs (Decidable (_ ∧ _))

theorem unbracketed_cons {c : Char} {t : Text} :
    Unbracketed (c :: t) ↔ (c ≠ '<' ∧ c ≠ '>') ∧ Unbracketed t := by
  simp only [Unbracketed, List.mem_cons, not_or, eq_comm (b := c)]
  tauto

theorem unbracketed_append {s t : Text} : Unbracketed (s ++ t) ↔ Unbracketed s ∧ Unbracketed t := by
  simp only [Unbracketed, List.mem_append, not_or]
  tauto

namespace Forest

def written : Forest → Text
  | nil => []
  | char c rest => c :: rest.written
  | tag first body rest => '<' :: first :: (body.written ++ '>' :: rest.written)

/-- Characters in front. -/
def spell (t : Text) (rest : Forest) : Forest := t.foldr .char rest

def tags : Forest → Nat
  | nil => 0
  | char _ rest => rest.tags
  | tag _ body rest => body.tags + (rest.tags + 1)

/-- Its characters are no brackets. -/
def IsPlain : Forest → Prop
  | nil => True
  | char c rest => (c ≠ '<' ∧ c ≠ '>') ∧ rest.IsPlain
  | tag first body rest => (first ≠ '<' ∧ first ≠ '>') ∧ body.IsPlain ∧ rest.IsPlain

instance : (f : Forest) → Decidable f.IsPlain
  | nil => isTrue trivial
  | char _ rest =>
    have := instDecidableIsPlain rest
    inferInstanceAs (Decidable (_ ∧ _))
  | tag _ body rest =>
    have := instDecidableIsPlain body
    have := instDecidableIsPlain rest
    inferInstanceAs (Decidable (_ ∧ _ ∧ _))

/-- From left to right, and what stands in a tag before the tag. -/
def evaluate (user : Text) : Forest → Answering Text
  | nil => return []
  | char c rest => do
    let t ← rest.evaluate user
    return c :: t
  | tag first body rest => do
    let inner ← body.evaluate user
    let new ← Variable.tag user park (first :: inner)
    let after ← rest.evaluate user
    return new ++ after

end Forest

/-! ### The first innermost tag -/

section Finding

variable {c : Char} {u v body : Text}

theorem dropWhile_brackets (hu : '>' ∉ u) (v : Text) :
    ∃ w, (u ++ '<' :: v).dropWhile (fun c => c ≠ '<' && c ≠ '>') = '<' :: w := by
  induction u with
  | nil => exact ⟨v, rfl⟩
  | cons d u ih =>
    rw [List.mem_cons, not_or] at hu
    by_cases hd : d = '<'
    · rw [hd]
      exact ⟨u ++ '<' :: v, rfl⟩
    · rw [List.cons_append, List.dropWhile_cons_of_pos (by simp [hd, Ne.symm hu.1])]
      exact ih hu.2

/-- A tag is not read where another one begins before it ends. -/
theorem readTag_of_not_mem (hu : '>' ∉ u) (hne : u ≠ []) (v : Text) : readTag (u ++ '<' :: v) = none := by
  obtain ⟨d, u, rfl⟩ := List.exists_cons_of_ne_nil hne
  by_cases hd : d = '<'
  · subst hd
    cases u with
    | nil => rfl
    | cons e u =>
      obtain ⟨w, hw⟩ := dropWhile_brackets (u := u) (fun h => hu (by simp [h])) v
      rw [List.cons_append, List.cons_append, readTag, hw]
      split <;> rfl
  · exact opens_readTag _ (by simp [hd])

theorem readTag_innermost (hc : c ≠ '<' ∧ c ≠ '>') (hbody : Unbracketed body) (v : Text) :
    readTag ('<' :: c :: (body ++ '>' :: v)) = some (c :: body, v) := by
  have hinside : ∀ d ∈ body, (d ≠ '<' && d ≠ '>') = true := by
    intro d hd
    have hopen : d ≠ '<' := fun h => hbody.1 (h ▸ hd)
    have hclose : d ≠ '>' := fun h => hbody.2 (h ▸ hd)
    simp [hopen, hclose]
  rw [readTag, if_neg hc.1, List.dropWhile_append_of_pos hinside, List.takeWhile_append_of_pos hinside]
  simp

/-- Before the first tag that ends there may be others that have only begun. -/
theorem find?_readTag (hu : '>' ∉ u) (hc : c ≠ '<' ∧ c ≠ '>') (hbody : Unbracketed body) (v : Text) :
    find? readTag (u ++ '<' :: c :: (body ++ '>' :: v)) = some (u, c :: body, v) := by
  induction u with
  | nil => rw [List.nil_append, find?, readTag_innermost hc hbody]
  | cons d u ih =>
    have hnone := readTag_of_not_mem hu (List.cons_ne_nil d u) (c :: (body ++ '>' :: v))
    rw [List.cons_append] at hnone
    rw [List.cons_append, find?, hnone, ih fun h => hu (List.mem_cons_of_mem d h)]
    rfl

end Finding

/-! ### States without brackets -/

/-- No value that a tag can show, and no text of a fault, has a bracket in it. -/
structure Bot.Unbracketed (b : Bot) : Prop where
  values : b.Holds fun _ value => Dialogue.Unbracketed value
  faults : ∀ fault : Variable.MathFault, Dialogue.Unbracketed (fault.text b.settings.wording)

section States

variable {user body new : Text} {b : Bot}

theorem unbracketed_shown (hb : b.Unbracketed) (hbody : Unbracketed body)
    (h : Variable.Shown user park body b new) : Unbracketed new := by
  cases h with
  | nothing => decide
  | undefined => decide
  | botVar hfind => exact hb.values.vars _ _ hfind
  | global hfind => exact hb.values.globals _ _ hfind
  | userVar hfind => exact hb.values.users _ _ _ hfind
  | fault fault => exact hb.faults fault
  | unknown =>
    rw [park, unbracketed_append, unbracketed_append]
    exact ⟨⟨by decide, hbody⟩, by decide⟩

theorem Bot.Unbracketed.afterTag (hb : b.Unbracketed) (hbody : Dialogue.Unbracketed body) (user : Text) :
    (Variable.afterTag user b body).Unbracketed := by
  rw [Variable.afterTag]
  cases hassigned : Variable.assigned? user b body with
  | none => exact hb
  | some x =>
    have hvalue : Dialogue.Unbracketed x.value := by
      have hmem := (Variable.mem_of_assigned? hassigned).2
      refine ⟨fun h => ?_, fun h => ?_⟩
      · rcases hmem _ h with h | h | h
        · exact hbody.1 h
        · exact absurd h (by decide)
        · exact absurd h (by decide)
      · rcases hmem _ h with h | h | h
        · exact hbody.2 h
        · exact absurd h (by decide)
        · exact absurd h (by decide)
    refine ⟨(Bot.holds_assign hb.values (by decide) x).mpr hvalue, ?_⟩
    rw [Bot.settings_assign]
    exact hb.faults

end States

/-! ### Evaluation -/

namespace Expansion

/-- Replaces tags as long as there are any, and brings back those that are not known. -/
def rewriteTags (user t : Text) : Answering Text := do
  let t ← editEach readTag (Variable.tag user park) tagLimit t
  return unpark t

theorem carryOutTags_eq (user t : Text) : carryOutTags user t = rewriteTags user (hideCalls t) := rfl

/-- Behind a text in which no tag has ended, a forest is rewritten as it is evaluated, with one step for
each tag, and nothing that looks like a tag is left of it. -/
def Rewrites (user : Text) (f : Forest) : Prop :=
  ∀ ⦃p : Process⦄, p.bot.Unbracketed →
    ∃ t q, (f.evaluate user).run.run p = (.ok t, q) ∧ q.bot.Unbracketed ∧ Unbracketed t ∧
      ∀ n u v, '>' ∉ u →
        (editEach readTag (Variable.tag user park) (n + f.tags) (u ++ (f.written ++ v))).run.run p =
          (editEach readTag (Variable.tag user park) n (u ++ (t ++ v))).run.run q

variable {user : Text} {f body rest : Forest} {first : Char} {p : Process}

theorem rewrites_nil : Rewrites user .nil := fun p hp => ⟨[], p, rfl, hp, by decide, fun _ _ _ _ => rfl⟩

theorem rewrites_char (hfirst : first ≠ '<' ∧ first ≠ '>') (hrest : Rewrites user rest) :
    Rewrites user (.char first rest) := by
  intro p hp
  obtain ⟨t, q, hrun, hq, ht, hedit⟩ := hrest hp
  refine ⟨first :: t, q, ?_, hq, unbracketed_cons.mpr ⟨hfirst, ht⟩, fun n u v hu => ?_⟩
  · rw [Forest.evaluate, run_bind, hrun]
    rfl
  · have hnext : '>' ∉ u ++ [first] := by
      rw [List.mem_append, List.mem_singleton, not_or]
      exact ⟨hu, Ne.symm hfirst.2⟩
    have hedit := hedit n (u ++ [first]) v hnext
    rw [List.append_assoc, List.append_assoc] at hedit
    exact hedit

/-- The tags inside come first, while this one has only begun, then this one, and then the rest. -/
theorem rewrites_tag (hfirst : first ≠ '<' ∧ first ≠ '>') (hbody : Rewrites user body)
    (hrest : Rewrites user rest) : Rewrites user (.tag first body rest) := by
  intro p hp
  obtain ⟨inner, q, hinnerRun, hq, hinner, hinnerEdit⟩ := hbody hp
  have htag := unbracketed_cons.mpr ⟨hfirst, hinner⟩
  obtain ⟨new, hnewRun, hshown⟩ := Variable.run_tag user park (first :: inner) q
  have hnew := unbracketed_shown hq htag hshown
  obtain ⟨after, r, hafterRun, hr, hafter, hafterEdit⟩ :=
    hrest (p := { q with bot := Variable.afterTag user q.bot (first :: inner) }) (hq.afterTag htag user)
  refine ⟨new ++ after, r, ?_, hr, unbracketed_append.mpr ⟨hnew, hafter⟩, fun n u v hu => ?_⟩
  · rw [Forest.evaluate, run_bind, hinnerRun]
    dsimp only
    rw [run_bind, hnewRun]
    dsimp only
    rw [run_bind, hafterRun]
    rfl
  · have hopen : '>' ∉ u ++ ['<', first] := by
      rw [List.mem_append, not_or]
      exact ⟨hu, by simp [Ne.symm hfirst.2]⟩
    have hclosed : '>' ∉ u ++ new := by
      rw [List.mem_append, not_or]
      exact ⟨hu, hnew.2⟩
    have hfind : find? readTag (u ++ ['<', first] ++ (inner ++ '>' :: (rest.written ++ v))) =
        some (u, first :: inner, rest.written ++ v) := by
      rw [List.append_assoc]
      exact find?_readTag hu hfirst hinner _
    have htext : u ++ ((Forest.tag first body rest).written ++ v) =
        u ++ ['<', first] ++ (body.written ++ '>' :: (rest.written ++ v)) := by
      simp [Forest.written]
    have htags : n + (Forest.tag first body rest).tags = n + (rest.tags + 1) + body.tags := by
      rw [Forest.tags]
      omega
    rw [htext, htags, hinnerEdit (n + (rest.tags + 1)) _ _ hopen, ← Nat.add_assoc,
      run_editEach hfind hnewRun, hafterEdit n (u ++ new) v hclosed, List.append_assoc u new,
      List.append_assoc new after]

theorem rewrites_of_plain (user : Text) (hf : f.IsPlain) : Rewrites user f := by
  induction f with
  | nil => exact rewrites_nil
  | char c rest ih => exact rewrites_char hf.1 (ih hf.2)
  | tag first body rest ihbody ihrest => exact rewrites_tag hf.1 (ihbody hf.2.1) (ihrest hf.2.2)

/-- Carrying out the tags of a text that is well nested evaluates them from left to right, those inside
of others first: what is said is the same, and so is all that is remembered. -/
theorem rewriteTags_evaluates (user : Text) (hf : f.IsPlain) (htags : f.tags ≤ tagLimit)
    (hp : p.bot.Unbracketed) : ∃ t q, (f.evaluate user).run.run p = (.ok t, q) ∧
      (rewriteTags user f.written).run.run p = (.ok (unpark t), q) := by
  obtain ⟨t, q, hrun, -, ht, hedit⟩ := rewrites_of_plain user hf hp
  have hall := hedit (tagLimit - f.tags) [] [] List.not_mem_nil
  rw [Nat.sub_add_cancel htags, List.nil_append, List.append_nil, List.nil_append, List.append_nil,
    editEach_of_none (find?_of_not_mem opens_readTag ht.1)] at hall
  refine ⟨t, q, hrun, ?_⟩
  rw [rewriteTags, run_bind, hall]
  rfl

/-- A number is set and added to itself, and something that is no tag is said. -/
def doubling : Forest :=
  .tag 's' (.spell "et x=2" .nil)
    (.tag 'a' (.spell "dd x=" (.tag 'g' (.spell "et x" .nil) .nil))
      (.tag 'g' (.spell "et x" .nil) (.spell " is " (.tag 'e' (.spell "m" .nil) (.spell "four" .nil)))))

theorem doubling_evaluates : doubling.written = "<set x=2><add x=<get x>><get x> is <em>four" ∧
    doubling.IsPlain ∧ doubling.tags ≤ tagLimit ∧ ({} : Bot).Unbracketed ∧
      ∃ t q, (doubling.evaluate "user").run.run { bot := {} } = (.ok t, q) ∧
        (rewriteTags "user" doubling.written).run.run { bot := {} } = (.ok (unpark t), q) ∧
          unpark t = "4 is <em>four" ∧ q.bot.roster.var? "user" "x" = some ("4" : Text) := by
  have hplain : doubling.IsPlain := by decide
  have hvalues : ({} : Bot).Holds fun _ value => Unbracketed value :=
    ⟨fun _ _ h => (nomatch h), fun _ _ h => (nomatch h), fun _ _ _ h => (nomatch h)⟩
  have hbot : ({} : Bot).Unbracketed := ⟨hvalues, fun fault => by cases fault <;> decide⟩
  obtain ⟨t, q, heval, hrewrite⟩ := rewriteTags_evaluates "user" hplain (by decide) (p := { bot := {} }) hbot
  have hsaid : ((rewriteTags "user" doubling.written).run.run { bot := {} }).1.toOption =
      some ("4 is <em>four" : Text) := by decide +kernel
  have hvar : ((rewriteTags "user" doubling.written).run.run { bot := {} }).2.bot.roster.var? "user" "x" =
      some ("4" : Text) := by decide +kernel
  rw [hrewrite] at hsaid hvar
  exact ⟨by decide, hplain, by decide, hbot, t, q, heval, hrewrite, Option.some.inj hsaid, hvar⟩

end Expansion

end Dialogue
