import Dialogue.Proofs.Lots
import Dialogue.Proofs.Settled
import Dialogue.Proofs.Words
import Dialogue.Script.Reading
import Mathlib.Data.List.GetD
import Mathlib.Data.Set.Basic

/-! An array in a reply. It stands there for a random choice that is read again from the text, so each
of its members can be the reply, and nothing else, unless a single member is taken for several. -/
namespace Dialogue

open Text

namespace Markup

/-- The tag for a member of an array. -/
def reference (name : Text) : Text := "(@" ++ name ++ ")"

/-- A name that can stand in the tag. -/
structure IsArrayName (name : Text) : Prop where
  ne : name ≠ []
  chars : ∀ c ∈ name, isArrayNameChar c

/-- Signs that would be read as something else in a choice. -/
def choiceSigns : Text := "|<\x7b\\(\x00\x01"

/-- A member that is one text in a choice and says itself. -/
def IsMember (m : Text) : Prop := ∀ c ∈ choiceSigns, c ∉ m

instance (m : Text) : Decidable (IsMember m) :=
  List.decidableBAll (fun c => c ∉ m) choiceSigns

def choice (body : Text) : Text := curly "random" ++ body ++ curly "/random"

variable {name body m : Text} {members : List Text} {arrays : Table (List Text)}

theorem readArray_reference (h : IsArrayName name) : readArray (reference name) = some (name, []) := by
  have hprefix : List.isPrefixOf? ("(@" : Text) (reference name) = some (name ++ [')']) := by
    rw [List.isPrefixOf?_eq_some_iff_append_eq, reference, List.append_assoc]
    rfl
  have hclosing : isArrayNameChar ')' = false := by decide
  obtain ⟨htake, hdrop⟩ := read_while h.chars hclosing []
  rw [readArray, hprefix, Option.bind_eq_bind, Option.bind_some]
  simp only [htake, hdrop]
  obtain ⟨c, name, rfl⟩ := List.exists_cons_of_ne_nil h.ne
  rfl

theorem expandArrays_reference (h : IsArrayName name) (hfind : arrays.find? name = some members) :
    expandArrays arrays (reference name) = choice (['|'].intercalate members) := by
  have hread := readArray_reference h
  have hne : reference name ≠ [] := by
    intro hnil
    rw [hnil] at hread
    cases hread
  have hchoice : memberChoice arrays name = choice (['|'].intercalate members) := by
    rw [memberChoice, hfind]
    rfl
  rw [← List.append_nil (reference name)] at hread
  rw [expandArrays, ← List.append_nil (reference name),
    edit_of_read hne (by rw [hread]; rfl), hchoice]
  exact List.append_nil _

theorem not_mem_choice {c : Char} (hmarks : c ∉ curly "random" ∧ c ∉ curly "/random") (hc : c ∉ body) :
    c ∉ choice body := by
  simp only [choice, List.mem_append, not_or]
  exact ⟨⟨hmarks.1, hc⟩, hmarks.2⟩

/-- A choice is no annotation, and there is none inside it. -/
theorem first?_choice (hbody : '\x7b' ∉ body) : Weight.first? (choice body) = none := by
  have hnot : ¬ ['\x7b', 'w'] <:+: choice body := by
    intro hwithin
    have hsplit : choice body = '\x7b' :: (("random\x7d" ++ body) ++ curly "/random") := by
      simp [choice, curly]
    rw [hsplit] at hwithin
    rcases List.infix_cons_iff.mp hwithin with hstarts | hwithin
    · cases (List.cons_prefix_cons.mp (List.cons_prefix_cons.mp hstarts).2).1
    · have hclosing : ['\x7b', 'w'] <:+: curly "/random" := by
        refine infix_of_append (fun c hc => ?_) hwithin
        cases hc
        simp [hbody]
      exact absurd hclosing (by decide)
  rw [Weight.first?_eq_none_iff]
  intro u hu
  cases hread : Weight.read u with
  | none => rfl
  | some found =>
    obtain ⟨v, rfl⟩ := Weight.head_of_read hread
    exact absurd ((List.prefix_append ['\x7b', 'w'] v).isInfix.trans hu.isInfix) hnot

theorem not_mem_intercalate (h : ∀ m ∈ members, IsMember m) {c : Char} (hc : c ∈ choiceSigns)
    (hbar : c ≠ '|') : c ∉ ['|'].intercalate members := by
  intro hmem
  rcases mem_of_mem_intercalate hmem with hsep | ⟨m, hm, hmem⟩
  · exact hbar (List.mem_singleton.mp hsep)
  · exact h m hm c hc hmem

/-- The choice is left as it is until it is made. -/
theorem prepare_reference (h : IsArrayName name) (hfind : arrays.find? name = some members)
    (hmembers : ∀ m ∈ members, IsMember m) (stars botStars : List Text) (history : History)
    (user : Text) :
    prepare arrays stars botStars history user (reference name) =
      choice (['|'].intercalate members) := by
  have hangle : '<' ∉ choice (['|'].intercalate members) :=
    not_mem_choice (by decide) (not_mem_intercalate hmembers (by decide) (by decide))
  have hback : '\\' ∉ choice (['|'].intercalate members) :=
    not_mem_choice (by decide) (not_mem_intercalate hmembers (by decide) (by decide))
  have hweight := first?_choice (not_mem_intercalate hmembers (by decide) (by decide))
  have huser : ¬ ("<id>" : Text) <:+: choice (['|'].intercalate members) :=
    fun hwithin => hangle (hwithin.subset List.mem_cons_self)
  rw [prepare, expandArrays_reference h hfind, expandShortcuts_of_not_mem hangle,
    Weight.remove_of_none hweight, expandStars, edit_of_not_mem (opens_readStar.map _) hangle,
    expandPast_of_not_mem history hangle, replace_of_not_infix huser,
    edit_of_not_mem opens_readEscape hback]

/-- The options of a choice between members are the members, -/
theorem options_intercalate {first second : Text} {rest : List Text}
    (h : ∀ m ∈ first :: second :: rest, '|' ∉ m) :
    options (['|'].intercalate (first :: second :: rest)) = first :: second :: rest := by
  have hcontains : (['|'].intercalate (first :: second :: rest)).contains '|' = true := by
    rw [List.intercalate_cons_cons]
    simp
  rw [options, hcontains, if_pos rfl]
  refine pieces_intercalate (by decide) (List.cons_ne_nil _ _) fun m hm c hc => decide_eq_false ?_
  rintro rfl
  exact h m hm hc

/-- but where there is only one, no bar shows that it is one. -/
theorem options_single (h : '|' ∉ m) : options (['|'].intercalate [m]) = pieces (· = ' ') m := by
  have hcontains : m.contains '|' = false := by simpa using h
  rw [List.intercalate_singleton, options, hcontains]
  rfl

theorem options_ne_nil (body : Text) : options body ≠ [] := by
  rw [options]
  split <;> exact pieces_ne_nil _ _

/-- Whatever is chosen says itself. -/
theorem settled_of_mem_options (hmembers : ∀ m ∈ members, IsMember m) {v : Text}
    (hv : v ∈ options (['|'].intercalate members)) : Settled v := by
  have hchars : ∀ c ∈ choiceSigns, c ≠ '|' → c ∉ v := by
    intro c hc hbar hmem
    rw [options] at hv
    refine not_mem_intercalate hmembers hc hbar ?_
    split at hv <;> exact mem_of_mem_pieces hv hmem
  exact settled_of_not_mem (hchars _ (by decide) (by decide)) (hchars _ (by decide) (by decide))
    (hchars _ (by decide) (by decide))
    (find?_of_not_mem opens_readArray (hchars _ (by decide) (by decide)))
    ⟨hchars _ (by decide) (by decide), hchars _ (by decide) (by decide)⟩

/-- A choice goes up to the mark that ends it. -/
theorem find?_choice (hbody : '\x7b' ∉ body) :
    find? (readBlock "random" 0) (choice body) = some ([], body, []) := by
  obtain ⟨mark, hmark⟩ : ∃ mark, curly "/random" = '\x7b' :: mark := ⟨_, rfl⟩
  have hapart : ∀ p, p <:+ body → p ≠ [] → ¬ curly "/random" <+: p ++ curly "/random" := by
    intro p hp hne hprefix
    obtain ⟨c, p, rfl⟩ := List.exists_cons_of_ne_nil hne
    rw [hmark, List.cons_append] at hprefix
    obtain ⟨rfl, -⟩ := List.cons_prefix_cons.mp hprefix
    exact hbody (hp.subset List.mem_cons_self)
  have hcut : cut? (curly "/random") (body ++ curly "/random") = some (body, []) := by
    have hself := cut?_self (curly "/random") [] (by decide)
    rw [List.append_nil] at hself
    rw [cut?_append_of_apart hapart, hself]
    exact congrArg some (Prod.ext (List.append_nil body) rfl)
  have hopening : (curly "random").isPrefixOf? (choice body) = some (body ++ curly "/random") := by
    rw [List.isPrefixOf?_eq_some_iff_append_eq, choice, List.append_assoc]
  have hread : readBlock "random" 0 (choice body) = some (body, []) := by
    rw [readBlock, readBetween, hopening]
    exact congrArg (Option.bind · _) hcut
  obtain ⟨c, t, hchoice⟩ : ∃ c t, choice body = c :: t := ⟨_, _, rfl⟩
  rw [hchoice] at hread ⊢
  rw [find?, hread]

end Markup

namespace Expansion

open Markup Answering

variable {a : Asking} {call : Answerer} {turn : Turn} {name : Text} {members : List Text}

theorem run_pick (body : Text) (p : Process) :
    ∃ n, ∃ hn : n < (options body).length,
      (∀ d draws, p.draws = d :: draws → n = d % (options body).length) ∧
      (pick body).run.run p = (.ok (options body)[n], { p with draws := p.draws.tail }) := by
  have htotal : Lot.total ((options body).map fun _ => 1) = (options body).length := by
    induction options body with
    | nil => rfl
    | cons option options ih => rw [List.map_cons, Lot.total_cons, ih, List.length_cons, Nat.add_comm]
  have hpos : 0 < Lot.total ((options body).map fun _ => 1) := by
    rw [htotal]
    exact List.length_pos_of_ne_nil (options_ne_nil body)
  have hdrawn := drawn_lt hpos p.draws
  refine ⟨drawn ((options body).map fun _ => 1) p.draws, htotal ▸ hdrawn, ?_, ?_⟩
  · intro d draws hdraws
    rw [hdraws, ← htotal]
    rfl
  · rw [pick, run_bind, run_draw, ← List.getD_eq_getElem _ []]
    rfl

/-- Once the choice is made, nothing in it is left to be carried out. -/
theorem run_expand_reference (hname : IsArrayName name)
    (hfind : a.playbook.arrays.find? name = some members) (hmembers : ∀ m ∈ members, IsMember m)
    (hdepth : 1 ≤ a.playbook.depth) (p : Process) :
    (expand a call turn (reference name)).run.run p =
      (pick (['|'].intercalate members)).run.run p := by
  have hbody : '\x7b' ∉ ['|'].intercalate members :=
    not_mem_intercalate hmembers (by decide) (by decide)
  obtain ⟨limit, hlimit⟩ := Nat.exists_eq_add_of_le' hdepth
  obtain ⟨n, hn, -, hpick⟩ := run_pick (['|'].intercalate members) p
  have hsettled := settled_of_mem_options hmembers (List.getElem_mem hn)
  have hrandom : readBlock "random" 0 = Directive.random.read := rfl
  rw [run_expand, prepare_reference hname hfind hmembers, hlimit, editEach, find?_choice hbody,
    bind_assoc, run_bind, hpick]
  dsimp only
  rw [List.nil_append, List.append_nil, hrandom, editEach_of_inert (by decide) hsettled.inert,
    pure_bind, afterChoices_of_settled hsettled]
  rfl

/-- What a text can become, whatever lots are drawn for it. -/
def expansions (a : Asking) (call : Answerer) (turn : Turn) (t : Text) (p : Process) : Set Text :=
  {v | ∃ draws q, (expand a call turn t).run.run { p with draws } = (.ok v, q)}

theorem expansions_reference (hname : IsArrayName name)
    (hfind : a.playbook.arrays.find? name = some members) (hmembers : ∀ m ∈ members, IsMember m)
    (hdepth : 1 ≤ a.playbook.depth) (p : Process) :
    expansions a call turn (reference name) p =
      {v | v ∈ options (['|'].intercalate members)} := by
  ext v
  simp only [expansions, run_expand_reference hname hfind hmembers hdepth, Set.mem_ofPred_eq]
  constructor
  · rintro ⟨draws, q, hrun⟩
    obtain ⟨n, hn, -, hpick⟩ := run_pick (['|'].intercalate members) { p with draws }
    rw [hpick] at hrun
    cases hrun
    exact List.getElem_mem hn
  · intro hv
    -- The place of the option in the list is the lot that has to be drawn.
    obtain ⟨i, hi, rfl⟩ := List.mem_iff_getElem.mp hv
    obtain ⟨n, hn, hdraws, hpick⟩ := run_pick (['|'].intercalate members) { p with draws := [i] }
    have hni : n = i := (hdraws i [] rfl).trans (Nat.mod_eq_of_lt hi)
    subst hni
    exact ⟨[n], _, hpick⟩

/-- What becomes of the tag for a member of an array. -/
structure GivesMember (a : Asking) (call : Answerer) (turn : Turn) (name : Text)
    (members : List Text) (p : Process) : Prop where
  /-- It is always carried out, with one lot. -/
  carriedOut : ∃ v ∈ expansions a call turn (reference name) p,
    (expand a call turn (reference name)).run.run p = (.ok v, { p with draws := p.draws.tail })
  members_iff : expansions a call turn (reference name) p = {v | v ∈ members} ↔
    ∀ m, members = [m] → ' ' ∉ m
  /-- A single member is taken for several at its blanks. -/
  single : ∀ m, members = [m] →
    expansions a call turn (reference name) p = {v | v ∈ pieces (· = ' ') m}

/-- An array of a reply stands for each of its members, unless there is only one, with a blank in it. -/
theorem givesMember (call : Answerer) (turn : Turn) (hname : IsArrayName name)
    (hfind : a.playbook.arrays.find? name = some members) (hne : members ≠ [])
    (hmembers : ∀ m ∈ members, IsMember m) (hdepth : 1 ≤ a.playbook.depth) (p : Process) :
    GivesMember a call turn name members p := by
  have hbar : ∀ m ∈ members, '|' ∉ m := fun m hm => hmembers m hm '|' (by decide)
  have hexpansions := @expansions_reference a call turn _ _ hname hfind hmembers hdepth p
  have hsingle : ∀ m, members = [m] →
      expansions a call turn (reference name) p = {v | v ∈ pieces (· = ' ') m} := by
    rintro m rfl
    rw [hexpansions, options_single (hbar m List.mem_cons_self)]
  refine ⟨?_, ⟨?_, ?_⟩, hsingle⟩
  · obtain ⟨n, hn, -, hpick⟩ := run_pick (['|'].intercalate members) p
    rw [← run_expand_reference hname hfind hmembers hdepth] at hpick
    exact ⟨_, ⟨p.draws, _, hpick⟩, hpick⟩
  · rintro hall m rfl hblank
    have hm : m ∈ expansions a call turn (reference name) p := by
      rw [hall]
      exact List.mem_cons_self
    rw [hsingle m rfl] at hm
    exact absurd (solid_of_mem_pieces hm ' ' hblank) (by decide)
  · intro hsolid
    cases members with
    | nil => exact absurd rfl hne
    | cons first rest =>
      cases rest with
      | nil =>
        have hpieces : pieces (· = ' ') first = [first] := by
          refine pieces_solid fun c hc => decide_eq_false ?_
          rintro rfl
          exact hsolid first rfl hc
        rw [hsingle first rfl, hpieces]
      | cons second rest => rw [hexpansions, options_intercalate hbar]

def colors : List Text := ["red", "light blue"]

def onlyColor : List Text := ["light blue"]

/-- A user of a bot that knows some colors. -/
def painter (colors : List Text) : Asking := ⟨"user", { arrays := ⟨[("colors", colors)]⟩, depth := 1 }⟩

def silence : Answerer := fun _ _ _ => pure []

theorem isArrayName_colors : IsArrayName "colors" where
  ne := by decide
  chars := List.all_eq_true.mp (by decide)

theorem painter_givesMember :
    IsArrayName "colors" ∧ (painter colors).playbook.arrays.find? "colors" = some colors ∧
    (∀ m ∈ colors, IsMember m) ∧
    GivesMember (painter colors) silence {} "colors" colors { bot := {} } := by
  have hfind : (painter colors).playbook.arrays.find? "colors" = some colors := by decide
  have hmembers : ∀ m ∈ colors, IsMember m := by decide
  exact ⟨isArrayName_colors, hfind, hmembers, givesMember silence {} isArrayName_colors hfind
    (List.cons_ne_nil _ _) hmembers (Nat.le_refl 1) _⟩

/-- An array whose only member is light blue gives the one word or the other. -/
theorem light_blue_split :
    (Definition.ofLine "array colors = light\\sblue").members = onlyColor ∧
    (painter onlyColor).playbook.arrays.find? "colors" = some onlyColor ∧
    (∀ m ∈ onlyColor, IsMember m) ∧
    expansions (painter onlyColor) silence {} (reference "colors") { bot := {} } =
      {v | v ∈ (["light", "blue"] : List Text)} ∧
    ("light blue" : Text) ∉
      expansions (painter onlyColor) silence {} (reference "colors") { bot := {} } := by
  have hfind : (painter onlyColor).playbook.arrays.find? "colors" = some onlyColor := by decide
  have hmembers : ∀ m ∈ onlyColor, IsMember m := by decide
  have hexpansions := @expansions_reference _ silence {} _ _ isArrayName_colors hfind hmembers
    (Nat.le_refl 1) { bot := {} }
  have hoptions : options (['|'].intercalate onlyColor) = ["light", "blue"] := by decide
  rw [hoptions] at hexpansions
  refine ⟨by decide, hfind, hmembers, hexpansions, ?_⟩
  rw [hexpansions]
  decide

end Expansion

end Dialogue
