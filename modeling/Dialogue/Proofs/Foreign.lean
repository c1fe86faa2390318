import Dialogue.Proofs.Lowered
import Dialogue.Proofs.Settled

/-! Markup of other languages. Angle brackets in which no tag of ours begins stay as they are written,
however many there are, however they are nested, and whether or not they are closed. -/
namespace Dialogue

namespace Markup

open Text

/-- What tags begin with, in letters of either case. -/
def reserved : List Text :=
  ["bot", "env", "set", "add", "sub", "mult", "div", "get", "star", "botstar", "input", "reply", "id",
    "person", "formal", "sentence", "uppercase", "lowercase", "call", "/call", "@"]

/-- Nothing is to be carried out in the text: no opening bracket stands right before what a tag of ours
begins with. Other angle brackets may stand anywhere. -/
structure Foreign (t : Text) : Prop where
  curly : '\x7b' ∉ t
  back : '\\' ∉ t
  array : ¬ "(@" <:+: t
  parks : '\x00' ∉ t ∧ '\x01' ∉ t
  tags : ∀ name ∈ reserved, ∀ u, '<' :: u <:+ t → ¬ name <+: lowerAscii u

instance (t : Text) : Decidable (Foreign t) :=
  decidable_of_iff ('\x7b' ∉ t ∧ '\\' ∉ t ∧ ¬ "(@" <:+: t ∧ ('\x00' ∉ t ∧ '\x01' ∉ t) ∧
      ∀ name ∈ reserved, ∀ s ∈ t.tails, s.head? = some '<' → ¬ name <+: lowerAscii s.tail) <| by
    constructor
    · rintro ⟨hcurly, hback, harray, hparks, htags⟩
      refine ⟨hcurly, hback, harray, hparks, fun name hname u hu => ?_⟩
      exact htags name hname _ ((List.mem_tails ..).mpr hu) rfl
    · rintro ⟨hcurly, hback, harray, hparks, htags⟩
      refine ⟨hcurly, hback, harray, hparks, fun name hname s hs hhead => ?_⟩
      obtain ⟨u, rfl⟩ := List.head?_eq_some_iff.mp hhead
      exact htags name hname u ((List.mem_tails ..).mp hs)

theorem lowerAscii_reserved : ∀ name ∈ reserved, lowerAscii name = name := by
  decide

theorem names_reserved : ∀ name ∈ Variable.names,
    name ∈ reserved ∧ ∀ c ∈ name, c.toNat < 0x80 ∧ c ≠ 'k' := by
  have hall : ∀ name ∈ Variable.names,
      name ∈ reserved ∧ (name.all fun c => decide (c.toNat < 0x80 ∧ c ≠ 'k')) = true := by
    decide
  simpa only [List.all_eq_true, decide_eq_true_eq] using hall

namespace Foreign

variable {t : Text}

theorem not_prefix (h : Foreign t) {name u : Text} (hname : name ∈ reserved) (hu : u <:+ t) :
    ¬ '<' :: name <+: u := by
  rintro ⟨rest, rfl⟩
  refine h.tags name hname _ hu ⟨lowerAscii rest, ?_⟩
  calc name ++ lowerAscii rest
      = lowerAscii name ++ lowerAscii rest := by rw [lowerAscii_reserved name hname]
    _ = lowerAscii (name ++ rest) := List.map_append.symm

/-- No mark that begins like a tag of ours stands in the text. -/
theorem not_infix (h : Foreign t) (name : Text) {mark : Text} (hname : name ∈ reserved)
    (hmark : '<' :: name <+: mark) : ¬ mark <:+: t := by
  intro hwithin
  obtain ⟨u, hstarts, hsuffix⟩ := List.infix_iff_prefix_suffix.mp hwithin
  exact h.not_prefix hname hsuffix (hmark.trans hstarts)

theorem isPrefixOf?_eq_none (h : Foreign t) (name : Text) {mark u : Text} (hname : name ∈ reserved)
    (hmark : '<' :: name <+: mark) (hu : u <:+ t) : mark.isPrefixOf? u = none := by
  cases hprefix : mark.isPrefixOf? u with
  | none => rfl
  | some rest =>
    have hstarts : mark <+: u := ⟨rest, List.isPrefixOf?_eq_some_iff_append_eq.mp hprefix⟩
    exact absurd (hmark.trans hstarts) (h.not_prefix hname hu)

theorem shortcuts_reserved : ∀ s ∈ shortcuts, ∃ name ∈ reserved, '<' :: name <+: s.1 := by
  decide

theorem find?_readArray (h : Foreign t) : find? readArray t = none := by
  refine find?_eq_none_iff.mpr fun u hu _ => ?_
  rw [readArray]
  cases hprefix : List.isPrefixOf? ("(@" : Text) u with
  | none => rfl
  | some rest =>
    have hstarts : ("(@" : Text) <+: u := ⟨rest, List.isPrefixOf?_eq_some_iff_append_eq.mp hprefix⟩
    exact absurd (hstarts.isInfix.trans hu.isInfix) h.array

theorem find?_readStar (h : Foreign t) : find? readStar t = none := by
  refine find?_eq_none_iff.mpr fun u hu _ => ?_
  have hbot : List.isPrefixOf? ("<botstar" : Text) u = none :=
    h.isPrefixOf?_eq_none "botstar" (by decide) (by decide) hu
  have hstar : List.isPrefixOf? ("<star" : Text) u = none :=
    h.isPrefixOf?_eq_none "star" (by decide) (by decide) hu
  rw [readStar, hbot, hstar, ite_self]
  rfl

theorem find?_readPast (h : Foreign t) : find? readPast t = none := by
  refine find?_eq_none_iff.mpr fun u hu _ => ?_
  have hinput : List.isPrefixOf? ("<input" : Text) u = none :=
    h.isPrefixOf?_eq_none "input" (by decide) (by decide) hu
  have hreply : List.isPrefixOf? ("<reply" : Text) u = none :=
    h.isPrefixOf?_eq_none "reply" (by decide) (by decide) hu
  rw [readPast, hinput, hreply]

/-- A tag that is carried out has its name in letters of ASCII. -/
theorem not_opensTag (h : Foreign t) : ¬ OpensTag t := by
  rintro ⟨name, last, hwithin, -, hname⟩
  obtain ⟨hreserved, hascii⟩ := names_reserved _ hname
  obtain ⟨u, ⟨rest, rfl⟩, hsuffix⟩ := List.infix_iff_prefix_suffix.mp hwithin
  refine h.tags _ hreserved _ hsuffix ⟨lowerAscii ([last] ++ rest), ?_⟩
  rw [← lowerAscii_eq_lower hascii]
  simp [lowerAscii]

theorem settled (h : Foreign t) : Settled t where
  inert := inert_of_not_mem h.curly h.parks
  arrays := h.find?_readArray
  shortcuts s hs := by
    obtain ⟨name, hname, hmark⟩ := shortcuts_reserved s hs
    exact h.not_infix name hname hmark
  weights := Weight.first?_of_not_mem h.curly
  stars := h.find?_readStar
  past := h.find?_readPast
  user := h.not_infix "id" (by decide) (by decide)
  escapes := find?_of_not_mem opens_readEscape h.back
  calls := ⟨h.not_infix "call" (by decide) (by decide),
    h.not_infix "/call" (by decide) (by decide)⟩
  tags := h.not_opensTag

end Foreign

end Markup

namespace Expansion

open Text Markup Answering

variable {t : Text}

/-- The text says just itself, whoever is answered and at whatever depth, and the bot, its users and all
that is on record are as they were. The number of tags that are carried out is limited, but that of
brackets is not. -/
theorem expand_foreign (h : Foreign t) (a : Asking) (call : Answerer) (turn : Turn) (p : Process) :
    (expand a call turn t).run.run p = (.ok t, p) := run_expand_settled h.settled a call turn p

def page : Text := "<<p>1 < 2 <EM set x=<u>3</u>>, </b> (<_ get topic> or <İd>>)< <"

/-- Brackets inside others, brackets without others, and what looks like a tag of ours inside a tag. -/
theorem page_kept : Foreign page ∧
    (expand ⟨"user", {}⟩ (fun _ _ _ => setback .notMatched) { depth := 3, stars := ["star"] } page).run.run
        { bot := {}, draws := [7] } = (.ok page, { bot := {}, draws := [7] }) := by
  have hpage : Foreign page := by decide +kernel
  exact ⟨hpage, expand_foreign hpage _ _ _ _⟩

end Expansion

end Dialogue
