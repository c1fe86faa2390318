import Dialogue.Proofs.Inert
import Dialogue.Proofs.Process
import Dialogue.Reply.Expansion

/-! What the passes over a reply make of a star inside a text without signs. The star takes its place
at once, and all later passes leave it alone if it is inert. -/
namespace Dialogue

namespace Text

variable {α : Type} {c : Char} {read : Reader α} {t u mark : Text}

/-- The reader needs the character to begin with. -/
def Opens (c : Char) (read : Reader α) : Prop := ∀ u, u.head? ≠ some c → read u = none

theorem Opens.of_suffix (h : Opens c read) (hc : c ∉ t) (hu : u <:+ t) : read u = none := by
  refine h u fun hhead => hc ?_
  exact hu.subset (List.mem_of_head? hhead)

theorem find?_of_not_mem (h : Opens c read) (hc : c ∉ t) : find? read t = none :=
  find?_eq_none_iff.mpr fun _ hu _ => h.of_suffix hc hu

theorem edit_of_not_mem {read : Reader Text} (h : Opens c read) (hc : c ∉ t) : edit read t = t :=
  edit_of_none fun _ hu _ => h.of_suffix hc hu

theorem edit_append_of_not_mem {read : Reader Text} (h : Opens c read) (hc : c ∉ t) (u : Text) :
    edit read (t ++ u) = t ++ edit read u := by
  refine edit_append fun s hs hne => h _ fun hhead => hc ?_
  obtain ⟨d, s, rfl⟩ := List.exists_cons_of_ne_nil hne
  obtain rfl : d = c := Option.some.inj hhead
  exact hs.subset List.mem_cons_self

theorem Opens.map {β : Type} (h : Opens c read) (f : α × Text → β × Text) :
    Opens c fun t => (read t).map f := by
  intro u hu
  show (read u).map f = none
  rw [h u hu]
  rfl

theorem editFrom_append (read : Reader Text) (s t : Text) :
    editFrom read s.length (s ++ t) = edit read t := by
  induction s with
  | nil => rfl
  | cons d s ih => exact ih

/-- What is read at the head of a text is edited, and then what comes after it. -/
theorem edit_of_read {read : Reader Text} {s new : Text} (hs : s ≠ [])
    (h : read (s ++ t) = some (new, t)) : edit read (s ++ t) = new ++ edit read t := by
  obtain ⟨d, s, rfl⟩ := List.exists_cons_of_ne_nil hs
  have hread : read (d :: (s ++ t)) = some (new, t) := h
  have hskip : (s ++ t).length - t.length = s.length := by
    rw [List.length_append, Nat.add_sub_cancel]
  rw [List.cons_append, edit, editFrom, hread]
  show new ++ editFrom read ((s ++ t).length - t.length) (s ++ t) = _
  rw [hskip, editFrom_append]

theorem isPrefixOf?_of_head? (hmark : mark.head? = some c) (hu : u.head? ≠ some c) :
    mark.isPrefixOf? u = none := by
  cases hp : mark.isPrefixOf? u with
  | none => rfl
  | some rest =>
    rw [← List.isPrefixOf?_eq_some_iff_append_eq.mp hp, List.head?_append, hmark] at hu
    exact absurd rfl hu

theorem replace_of_not_infix {new : Text} (h : ¬ mark <:+: t) : replace mark new t = t := by
  refine edit_of_none fun u hu _ => ?_
  cases hp : mark.isPrefixOf? u with
  | none => rfl
  | some rest =>
    have hstarts : mark <+: u := ⟨rest, List.isPrefixOf?_eq_some_iff_append_eq.mp hp⟩
    exact absurd (hstarts.isInfix.trans hu.isInfix) h

theorem opens_readBetween {opening : Text} (hopening : opening.head? = some c) (closing : Text)
    (least : Nat) : Opens c (readBetween opening closing least) := by
  intro u hu
  rw [readBetween, isPrefixOf?_of_head? hopening hu]
  rfl

end Text

theorem Weight.opens_read : Text.Opens '\x7b' Weight.read := by
  intro u hu
  rw [Weight.read, Text.isPrefixOf?_of_head? rfl hu]
  rfl

theorem Weight.first?_of_not_mem {t : Text} (h : '\x7b' ∉ t) : Weight.first? t = none := by
  rw [Weight.first?, Text.find?_of_not_mem Weight.opens_read h]
  rfl

namespace Markup

open Text

theorem opens_readArray : Opens '(' readArray := by
  intro u hu
  rw [readArray, isPrefixOf?_of_head? rfl hu]
  rfl

theorem opens_readStar : Opens '<' readStar := by
  intro u hu
  rw [readStar, isPrefixOf?_of_head? rfl hu, isPrefixOf?_of_head? rfl hu, ite_self]
  rfl

theorem opens_readPast : Opens '<' readPast := by
  intro u hu
  rw [readPast, isPrefixOf?_of_head? rfl hu, isPrefixOf?_of_head? rfl hu]

theorem opens_readEscape : Opens '\\' readEscape := by
  intro u hu
  unfold readEscape
  split
  all_goals first | rfl | exact absurd rfl hu

theorem opens_readTag : Opens '<' readTag := by
  intro u hu
  unfold readTag
  split
  · exact absurd rfl hu
  · rfl

/-! ### The star takes its place -/

variable {pre post star t : Text}

theorem expandArrays_of_not_mem (arrays : Table (List Text)) (h : '(' ∉ t) :
    expandArrays arrays t = t :=
  edit_of_not_mem (opens_readArray.map _) h

theorem expandPast_of_not_mem (history : History) (h : '<' ∉ t) : expandPast history t = t :=
  edit_of_not_mem (opens_readPast.map _) h

theorem expandStars_star (stars botStars : List Text) (hpre : '<' ∉ pre) (hpost : '<' ∉ post) :
    expandStars (star :: stars) botStars (pre ++ "<star>" ++ post) = pre ++ star ++ post := by
  rw [expandStars, List.append_assoc, edit_append_of_not_mem (opens_readStar.map _) hpre,
    List.append_assoc]
  congr 1
  calc edit _ ("<star>" ++ post)
      = star ++ edit _ post := edit_of_read (by decide) rfl
    _ = star ++ post := by rw [edit_of_not_mem (opens_readStar.map _) hpost]

theorem not_infix_star {mark : Text} (hmark : mark.head? = some '<')
    (hstar : ¬ mark.take 3 <+: "<st") (hpre : '<' ∉ pre) (hpost : '<' ∉ post) :
    ¬ mark <:+: pre ++ "<star>" ++ post := by
  intro hwithin
  rw [List.append_assoc] at hwithin
  have hwithin : mark <:+: '<' :: ("star>" ++ post) := by
    refine infix_of_append (fun c hc => ?_) hwithin
    rw [hmark] at hc
    cases hc
    exact hpre
  rcases List.infix_cons_iff.mp hwithin with hstarts | hwithin
  · exact hstar (hstarts.take 3)
  · have hmem := hwithin.subset (List.mem_of_head? hmark)
    simp [hpost] at hmem

theorem expandShortcuts_of_not_infix (h : ∀ s ∈ shortcuts, ¬ s.1 <:+: t) : expandShortcuts t = t := by
  refine List.foldlRecOn (motive := (· = t)) shortcuts _ rfl ?_
  rintro u rfl s hs
  exact replace_of_not_infix (h s hs)

theorem head?_shortcuts : ∀ s ∈ shortcuts, s.1.head? = some '<' := by
  decide

theorem expandShortcuts_of_not_mem (h : '<' ∉ t) : expandShortcuts t = t :=
  expandShortcuts_of_not_infix fun s hs hwithin =>
    h (hwithin.subset (List.mem_of_head? (head?_shortcuts s hs)))

/-- No shortcut is a star that is written out. -/
theorem expandShortcuts_star (hpre : '<' ∉ pre) (hpost : '<' ∉ post) :
    expandShortcuts (pre ++ "<star>" ++ post) = pre ++ "<star>" ++ post := by
  have hstar : ∀ s ∈ shortcuts, ¬ s.1.take 3 <+: "<st" := by
    decide
  exact expandShortcuts_of_not_infix fun s hs =>
    not_infix_star (head?_shortcuts s hs) (hstar s hs) hpre hpost

/-- Nothing but the star is looked up in the reply. -/
theorem prepare_star (arrays : Table (List Text)) (stars botStars : List Text) (history : History)
    (user : Text) (hpre : Unmarked pre) (hpost : Unmarked post) (hopen : '<' ∉ star)
    (hback : '\\' ∉ star) :
    prepare arrays (star :: stars) botStars history user (pre ++ "<star>" ++ post) =
      pre ++ star ++ post := by
  have hangle : '<' ∉ pre ∧ '<' ∉ post := ⟨hpre _ (by decide), hpost _ (by decide)⟩
  have hround : '(' ∉ pre ++ "<star>" ++ post :=
    not_mem_between (by decide) hpre hpost (by decide)
  have hcurly : '\x7b' ∉ pre ++ "<star>" ++ post :=
    not_mem_between (by decide) hpre hpost (by decide)
  have hopen : '<' ∉ pre ++ star ++ post := not_mem_between (by decide) hpre hpost hopen
  have hback : '\\' ∉ pre ++ star ++ post := not_mem_between (by decide) hpre hpost hback
  have hweight : Weight.remove (pre ++ "<star>" ++ post) = pre ++ "<star>" ++ post :=
    edit_of_not_mem (Weight.opens_read.map _) hcurly
  have huser : replace "<id>" user (pre ++ star ++ post) = pre ++ star ++ post := by
    apply replace_of_not_infix
    intro hwithin
    exact hopen (hwithin.subset List.mem_cons_self)
  rw [prepare, expandArrays_of_not_mem arrays hround, expandShortcuts_star hangle.1 hangle.2, hweight,
    expandStars_star stars botStars hangle.1 hangle.2, expandPast_of_not_mem history hopen, huser,
    edit_of_not_mem opens_readEscape hback]

/-! ### What is hidden meanwhile -/

theorem hideCalls_of_not_mem (h : '<' ∉ t) : hideCalls t = t := by
  have hnot (mark : Text) (hmark : mark.head? = some '<') : ¬ mark <:+: t := by
    intro hwithin
    exact h (hwithin.subset (List.mem_of_head? hmark))
  rw [hideCalls, replace_of_not_infix (hnot "<call>" rfl), replace_of_not_infix (hnot "</call>" rfl)]

theorem showCalls_of_inert (h : Inert t) : showCalls t = t := by
  have hopening : ¬ curly "__call__" <:+: t := h.calls _ (by decide)
  have hclosing : ¬ curly "/__call__" <:+: t := h.calls _ (by decide)
  rw [showCalls, replace_of_not_infix hopening, replace_of_not_infix hclosing]

theorem unpark_of_not_mem (hopen : '\x00' ∉ t) (hclose : '\x01' ∉ t) : unpark t = t := by
  have hsame : ∀ c ∈ t, (if c = '\x00' then '<' else if c = '\x01' then '>' else c) = c := by
    intro c hc
    have hopen : c ≠ '\x00' := fun heq => hopen (heq ▸ hc)
    have hclose : c ≠ '\x01' := fun heq => hclose (heq ▸ hc)
    rw [if_neg hopen, if_neg hclose]
  calc unpark t = t.map id := List.map_congr_left hsame
    _ = t := List.map_id t

theorem unpark_of_inert (h : Inert t) : unpark t = t := unpark_of_not_mem h.parks.1 h.parks.2

end Markup

/-! ### The later passes -/

namespace Expansion

open Text Markup Answering

variable {t : Text}

theorem editEach_of_none {α : Type} {read : Reader α} (h : find? read t = none)
    (f : α → Answering Text) (limit : Nat) : editEach read f limit t = pure t := by
  cases limit with
  | zero => rfl
  | succ limit => rw [editEach, h]

/-- One step: what is found first is replaced, and the rest of the steps see the whole new text. -/
theorem run_editEach {α : Type} {read : Reader α} {f : α → Answering Text} {found : α}
    {before new rest : Text} {p q : Process} (hfind : find? read t = some (before, found, rest))
    (hrun : (f found).run.run p = (.ok new, q)) (limit : Nat) :
    (editEach read f (limit + 1) t).run.run p =
      (editEach read f limit (before ++ new ++ rest)).run.run q := by
  rw [editEach, hfind]
  dsimp only
  rw [run_bind, hrun]

theorem editEach_of_inert {d : Directive} (hd : d ∈ Directive.all) (h : Inert t)
    (f : Text → Answering Text) (limit : Nat) : editEach d.read f limit t = pure t :=
  editEach_of_none ((Directive.find?_read hd).mpr (h.directives d hd)) f limit

theorem formatBlocks_of_inert (h : Inert t) (person : Substitution) (limit : Nat)
    (blocks : List Block) : formatBlocks person limit blocks t = pure t := by
  induction blocks with
  | nil => rfl
  | cons block blocks ih =>
    have hall : block ∈ Block.all := by
      cases block <;> decide
    have hblock : Directive.block block ∈ Directive.all :=
      List.mem_append_right _ (List.mem_map_of_mem hall)
    have hread : readBlock block.name 1 = (Directive.block block).read := rfl
    rw [formatBlocks, hread, editEach_of_inert hblock h, pure_bind, ih]

theorem carryOutTags_of_inert (h : Inert t) (hopen : '<' ∉ t) (user : Text) :
    carryOutTags user t = pure t := by
  rw [carryOutTags, hideCalls_of_not_mem hopen,
    editEach_of_none (find?_of_not_mem opens_readTag hopen), pure_bind, unpark_of_inert h]

/-- A topic is named on one line, but here none is named at all. -/
theorem find?_readTopic (h : Inert t) : find? readTopic t = none := by
  have hd : Directive.topic ∈ Directive.all := by decide
  have hnone := (Directive.find?_read hd).mpr (h.directives _ hd)
  rw [find?_eq_none_iff] at hnone ⊢
  intro u hu hne
  show (Directive.topic.read u).bind _ = none
  rw [hnone u hu hne]
  rfl

variable {pre post star : Text} {turn : Turn} {stars : List Text}

/-- A reply that gives back an inert star says just that, and does nothing. -/
theorem run_expand_star (a : Asking) (call : Answerer) (hstars : turn.stars = star :: stars)
    (hpre : Unmarked pre) (hpost : Unmarked post) (hstar : Inert star) (hopen : '<' ∉ star)
    (hback : '\\' ∉ star) (p : Process) :
    (expand a call turn (pre ++ "<star>" ++ post)).run.run p = (.ok (pre ++ star ++ post), p) := by
  have hprepare (history : History) := prepare_star a.playbook.arrays stars turn.botStars history
    a.user hpre hpost hopen hback
  have hinert : Inert (pre ++ star ++ post) := hstar.between hpre hpost
  have hopen : '<' ∉ pre ++ star ++ post := not_mem_between (by decide) hpre hpost hopen
  have hrandom : readBlock "random" 0 = Directive.random.read := rfl
  have hload : readHotLoad = Directive.hotLoad.read := rfl
  have hredirect : readRedirect = Directive.redirect.read := rfl
  have hcall : find? readCall (pre ++ star ++ post) = none :=
    find?_of_not_mem (opens_readBetween rfl _ _) hopen
  rw [expand, run_bot]
  dsimp only
  rw [hstars, hprepare, hrandom, editEach_of_inert (by decide) hinert, pure_bind,
    hload, editEach_of_inert (by decide) hinert, pure_bind,
    formatBlocks_of_inert hinert, pure_bind,
    carryOutTags_of_inert hinert hopen, pure_bind,
    editEach_of_none (find?_readTopic hinert), pure_bind,
    hredirect, editEach_of_inert (by decide) hinert, pure_bind,
    showCalls_of_inert hinert, editEach_of_none hcall]
  rfl

end Expansion

end Dialogue
