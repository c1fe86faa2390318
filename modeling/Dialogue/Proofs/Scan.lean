import Dialogue.Proofs.Checked
import Dialogue.Proofs.Seen

/-! What the scan of a trigger sees of its pattern. It reads signs and nothing else, so it sees all
that the pattern means and also signs that stand in tags and names. -/
namespace Dialogue

open Text

variable {f : Feature} {c : Char} {t : Text}

/-! ### The scan and the tokens -/

/-- The sign of a feature where it does not mean it: after a backslash, in the name of an array or in
a tag. An underscore after a backslash is none to the scan either. -/
def Token.hides (f : Feature) : Token → Bool
  | .literal c => f != .wild .letters && c == f.sign
  | .array name => name.contains f.sign
  | .tag body => body.contains f.sign
  | _ => false

namespace Pattern

theorem seenIn_of_token {token : Token} {tokens : List Token} (hc : c ≠ '\\')
    (htoken : token.has f → c = f.sign) (h : (token :: tokens).any (Token.has f))
    (ih : tokens.any (Token.has f) → f.seenIn false t) : f.seenIn false (c :: t) := by
  rw [List.any_cons, Bool.or_eq_true] at h
  rw [Feature.seenIn_cons hc, Bool.or_eq_true]
  rcases h with h | h
  · rw [htoken h]
    simp
  · exact Or.inr (ih h)

theorem not_mem_takeWhile {p : Char → Bool} (hp : p c = false) (t : Text) : c ∉ t.takeWhile p := by
  intro hmem
  rw [List.mem_takeWhile_imp hmem] at hp
  cases hp

theorem drop_takeWhile (t : Text) :
    t.takeWhile isNameChar ++ t.drop (t.takeWhile isNameChar).length = t := by
  have htake := List.prefix_iff_eq_take.mp (List.takeWhile_prefix isNameChar (l := t))
  conv_lhs => rw [htake]
  rw [List.length_take_of_le (List.takeWhile_prefix _).length_le, List.take_append_drop]

theorem seenIn_name (t : Text) : f.seenIn false t =
    (f.seenIn false (t.takeWhile isNameChar) ||
      f.seenIn false (t.drop (t.takeWhile isNameChar).length)) := by
  have hbackslash : '\\' ∉ t.takeWhile isNameChar := not_mem_takeWhile (by decide +kernel) t
  conv_lhs => rw [← drop_takeWhile t]
  rw [Feature.seenIn_append hbackslash]

theorem seenIn_tag {body rest : Text} (hcut : cutAt? (· = '>') t = some (body, rest)) :
    f.seenIn false t = (f.seenIn false body || f.seenIn false (t.drop (body.length + 1))) := by
  obtain ⟨c, hc, rfl⟩ := Text.eq_of_cutAt? hcut
  obtain rfl : c = '>' := of_decide_eq_true hc
  have hdrop : (body ++ '>' :: rest).drop (body.length + 1) = rest := by
    rw [← List.drop_drop, List.drop_left]
    rfl
  have hsign : '>' ≠ f.sign := by
    rcases f with (_ | _ | _) | _ <;> decide
  rw [hdrop, Feature.seenIn_append_cons (by decide) hsign]

/-- What is a token of a pattern is seen. -/
theorem seenIn_of_has {skip : Nat} (h : (tokensFrom skip t).any (Token.has f)) :
    f.seenIn false (t.drop skip) := by
  fun_induction tokensFrom skip t with
  | case1 => cases h
  | case2 skip c t ih => exact ih h
  | case3 t ih | case4 t ih | case5 t ih | case6 t ih | case7 t ih | case8 t ih | case9 t ih
  | case10 t ih =>
    refine seenIn_of_token (by decide) (fun htoken => ?_) h ih
    rcases f with (_ | _ | _) | _ <;> first | rfl | cases htoken
  | case11 => cases h
  | case12 e t ih =>
    have hrest : f.seenIn false t := ih h
    rw [List.drop_zero, Feature.seenIn]
    by_cases he : e = '\\'
    · rw [he]
      exact hrest
    · rw [Feature.seenIn_cons he, hrest, Bool.or_true]
  | case13 t hname ih => exact seenIn_of_token (by decide) (fun htoken => by cases htoken) h ih
  | case14 t hname ih =>
    refine seenIn_of_token (by decide) (fun htoken => by cases htoken) h fun hrest => ?_
    rw [seenIn_name, ih hrest, Bool.or_true]
  | case15 => cases h
  | case16 t body rest hcut ih =>
    refine seenIn_of_token (by decide) (fun htoken => by cases htoken) h fun hrest => ?_
    rw [seenIn_tag hcut, ih hrest, Bool.or_true]
  | case17 t c hbar hopen hclose hopen' hclose' hstar hnumber hletters hback hat hless ih =>
    refine seenIn_of_token hback (fun htoken => ?_) h ih
    split at htoken <;> cases htoken

theorem token_of_seenIn {token : Token} {tokens : List Token} (hc : c ≠ '\\')
    (htoken : c = f.sign → token.has f) (h : f.seenIn false (c :: t))
    (ih : f.seenIn false t → tokens.any fun token => token.has f || token.hides f) :
    (token :: tokens).any fun token => token.has f || token.hides f := by
  rw [Feature.seenIn_cons hc, Bool.or_eq_true, Bool.and_eq_true, beq_iff_eq] at h
  rw [List.any_cons, Bool.or_eq_true, Bool.or_eq_true]
  rcases h with ⟨hsign, -⟩ | h
  · exact Or.inl (Or.inl (htoken hsign))
  · exact Or.inr (ih h)

theorem token_of_seenIn_part {token : Token} {tokens : List Token} {part rest : Text}
    (hc : c ≠ '\\') (hsign : c ≠ f.sign) (h : f.seenIn false (c :: t))
    (hsplit : f.seenIn false t = (f.seenIn false part || f.seenIn false rest))
    (htoken : f.sign ∈ part → token.hides f)
    (ih : f.seenIn false rest → tokens.any fun token => token.has f || token.hides f) :
    (token :: tokens).any fun token => token.has f || token.hides f := by
  rw [Feature.seenIn_cons_other hc hsign, hsplit, Bool.or_eq_true] at h
  rw [List.any_cons, Bool.or_eq_true, Bool.or_eq_true]
  rcases h with h | h
  · exact Or.inl (Or.inr (htoken (Feature.mem_of_seenIn h)))
  · exact Or.inr (ih h)

/-- What is seen is a token, or a token hides it. -/
theorem has_or_hides {skip : Nat} (htags : .openTag ∉ tokensFrom skip t)
    (h : f.seenIn false (t.drop skip)) :
    (tokensFrom skip t).any fun token => token.has f || token.hides f := by
  fun_induction tokensFrom skip t with
  | case1 =>
    rw [List.drop_nil] at h
    cases h
  | case2 skip c t ih => exact ih htags h
  | case3 t ih | case4 t ih | case5 t ih | case6 t ih | case7 t ih | case8 t ih | case9 t ih
  | case10 t ih =>
    refine token_of_seenIn (by decide) (fun hsign => ?_) h
      (ih fun hmem => htags (List.mem_cons_of_mem _ hmem))
    rcases f with (_ | _ | _) | _ <;> first | rfl | cases hsign
  | case11 => cases h
  | case12 e t ih =>
    have hrest := ih fun hmem => htags (List.mem_cons_of_mem _ hmem)
    rw [List.any_cons, Bool.or_eq_true]
    rw [List.drop_zero, Feature.seenIn] at h
    by_cases he : e = '\\'
    · rw [he] at h
      exact Or.inr (hrest h)
    · rw [Feature.seenIn_cons he, Bool.or_eq_true] at h
      rcases h with h | h
      · refine Or.inl ?_
        simp only [Bool.not_false, Bool.true_and, Bool.and_eq_true, Bool.not_eq_true'] at h
        simp [Token.has, Token.hides, bne, h.1, h.2]
      · exact Or.inr (hrest h)
  | case13 t hname ih =>
    refine token_of_seenIn (by decide) (fun hsign => ?_) h
      (ih fun hmem => htags (List.mem_cons_of_mem _ hmem))
    rcases f with (_ | _ | _) | _ <;> cases hsign
  | case14 t hname ih =>
    have hsign : '@' ≠ f.sign := by
      rcases f with (_ | _ | _) | _ <;> decide
    refine token_of_seenIn_part (by decide) hsign h (seenIn_name t) (fun hmem => ?_)
      (ih fun hmem => htags (List.mem_cons_of_mem _ hmem))
    exact List.contains_iff_mem.mpr hmem
  | case15 => exact absurd List.mem_cons_self htags
  | case16 t body rest hcut ih =>
    have hsign : '<' ≠ f.sign := by
      rcases f with (_ | _ | _) | _ <;> decide
    refine token_of_seenIn_part (by decide) hsign h (seenIn_tag hcut) (fun hmem => ?_)
      (ih fun hmem => htags (List.mem_cons_of_mem _ hmem))
    exact List.contains_iff_mem.mpr hmem
  | case17 t c hbar hopen hclose hopen' hclose' hstar hnumber hletters hback hat hless ih =>
    refine token_of_seenIn hback (fun hsign => ?_) h
      (ih fun hmem => htags (List.mem_cons_of_mem _ hmem))
    rcases f with (_ | _ | _) | _ <;> contradiction

/-- A pattern shows a sign that it does not mean. -/
def Hides (pattern : Text) (f : Feature) : Prop :=
  ∃ token ∈ tokensFrom 0 (Weight.strip pattern), token.hides f

theorem tagsEnd_of_check {pattern : Text} (h : check pattern = .ok ()) : TagsEnd pattern := by
  intro hmem
  have hnone := nesting_of_openTag hmem []
  rw [check_eq] at h
  cases hn : nesting [] (tokensFrom 0 (Weight.strip pattern)) with
  | error cause =>
    rw [hn] at h
    cases h
  | ok opened =>
    rw [hn] at hnone
    cases hnone

end Pattern

/-! ### Kinds -/

/-- The kind of a trigger that has some features and words. -/
def Kind.ofFeatures (has : Feature → Bool) (words : Nat) : Kind :=
  if has (.wild .letters) then if words = 0 then .onlyLetters else .letters
  else if has (.wild .number) then if words = 0 then .onlyNumber else .number
  else if has (.wild .anything) then if words = 0 then .onlyAnything else .anything
  else if has .optional then .optional
  else .atomic

def Kind.isWild : Kind → Bool
  | .atomic | .optional => false
  | _ => true

theorem Kind.isWild_ofFeatures (has : Feature → Bool) (words : Nat) :
    (ofFeatures has words).isWild ↔ ∃ w, has (.wild w) := by
  constructor
  · intro h
    by_cases hletters : has (.wild .letters)
    · exact ⟨_, hletters⟩
    by_cases hnumber : has (.wild .number)
    · exact ⟨_, hnumber⟩
    by_cases hanything : has (.wild .anything)
    · exact ⟨_, hanything⟩
    rw [ofFeatures, if_neg hletters, if_neg hnumber, if_neg hanything] at h
    split at h <;> cases h
  · rintro ⟨w, hw⟩
    unfold ofFeatures
    split_ifs <;> first | rfl | (cases w <;> contradiction)

theorem Entry.kind_eq (e : Entry) : e.kind = Kind.ofFeatures e.shape.has e.words := rfl

/-- The scan sees what can be seen of the text that is matched. -/
theorem Entry.has_shape_ofText {pattern : Text} (hapart : f = .wild .letters → Weight.Apart pattern) :
    (ofText pattern).shape.has f = f.seenIn false (Weight.strip pattern) := by
  have hstrip : Weight.strip pattern = trim (Weight.spaced pattern) := rfl
  have hnone : Shape.has {} f = false := by
    rcases f with (_ | _ | _) | _ <;> rfl
  have hclear : f.seenIn false (Weight.remove pattern) = f.seenIn false (Weight.spaced pattern) :=
    (Weight.cleared pattern).seenIn hapart fun _ h => nomatch h
  rw [shape_ofText, Shape.has_scan, hnone, hstrip, Feature.seenIn_trim, hclear]
  exact Bool.false_or _

/-- What the scan of a pattern tells of its expression. -/
structure Scanned (pattern : Text) (e : Expression) : Prop where
  /-- Nothing is overlooked. -/
  seen : ∀ f, (f = .wild .letters → Weight.Apart pattern) → e.has f →
    (Entry.ofText pattern).shape.has f
  /-- What is seen is there, or the sign of it is hidden. -/
  meant : ∀ f, (f = .wild .letters → Weight.Apart pattern) →
    (Entry.ofText pattern).shape.has f → e.has f ∨ Pattern.Hides pattern f
  wild : ∀ w, (w = .letters → Weight.Apart pattern) → e.has (.wild w) →
    (Entry.ofText pattern).kind.isWild
  not_wild : Weight.Apart pattern → (Entry.ofText pattern).kind.isWild →
    ∃ w, e.has (.wild w) ∨ Pattern.Hides pattern (.wild w)
  kind : Weight.Apart pattern → (∀ f, ¬ Pattern.Hides pattern f) →
    (Entry.ofText pattern).kind = Kind.ofFeatures e.has (Entry.ofText pattern).words

/-- The scan of a well-formed pattern sees all wildcards and optional parts that its expression has,
wherever it is tried, and what it sees beyond that is hidden in the pattern. -/
theorem scan_sees {pattern : Text} (h : Pattern.check pattern = .ok ()) :
    ∃ is, Pattern.items (Weight.strip pattern) = .ok is ∧
      ∀ s, Scanned pattern (Pattern.expression s is) := by
  obtain ⟨is, his⟩ := Pattern.items_of_check h
  have htags := Pattern.tagsEnd_of_check h
  refine ⟨is, his, fun s => ?_⟩
  have hseen : ∀ f, (f = .wild .letters → Weight.Apart pattern) →
      (Pattern.expression s is).has f → (Entry.ofText pattern).shape.has f := by
    intro f hapart hf
    rw [Pattern.has_expression his] at hf
    rw [Entry.has_shape_ofText hapart]
    exact Pattern.seenIn_of_has hf
  have hmeant : ∀ f, (f = .wild .letters → Weight.Apart pattern) →
      (Entry.ofText pattern).shape.has f →
        (Pattern.expression s is).has f ∨ Pattern.Hides pattern f := by
    intro f hapart hf
    rw [Entry.has_shape_ofText hapart] at hf
    rw [Pattern.has_expression his]
    obtain ⟨token, htoken, hor⟩ := List.any_eq_true.mp (Pattern.has_or_hides htags hf)
    rcases Bool.or_eq_true _ _ ▸ hor with hhas | hhides
    · exact Or.inl (List.any_eq_true.mpr ⟨token, htoken, hhas⟩)
    · exact Or.inr ⟨token, htoken, hhides⟩
  refine ⟨hseen, hmeant, ?_, ?_, ?_⟩
  · intro w hapart hw
    rw [Entry.kind_eq, Kind.isWild_ofFeatures]
    exact ⟨w, hseen _ (fun hf => hapart (Feature.wild.inj hf)) hw⟩
  · intro hapart hwild
    rw [Entry.kind_eq, Kind.isWild_ofFeatures] at hwild
    obtain ⟨w, hw⟩ := hwild
    exact ⟨w, hmeant _ (fun _ => hapart) hw⟩
  · intro hapart hnone
    have hsame : (Entry.ofText pattern).shape.has = (Pattern.expression s is).has := by
      funext f
      rw [Bool.eq_iff_iff]
      constructor
      · intro hf
        exact (hmeant f (fun _ => hapart) hf).resolve_right (hnone f)
      · exact hseen f fun _ => hapart
    rw [Entry.kind_eq, hsame]

def inquiry : Text := "\x7binherits=2\x7d(what|which) # is [my] <get name>{weight=3}"

theorem inquiry_scanned : ∃ is, Pattern.items (Weight.strip inquiry) = .ok is ∧
    (Pattern.expression {} is).has .optional ∧
    (Entry.ofText inquiry).kind = Kind.ofFeatures (Pattern.expression {} is).has 5 ∧
    (Entry.ofText inquiry).kind = .number := by
  have hcheck : Pattern.check inquiry = .ok () := by decide +kernel
  obtain ⟨is, his, hscanned⟩ := scan_sees hcheck
  have happart : Weight.Apart inquiry := by
    intro u hu
    have hmem : '\\' ∈ inquiry := hu.subset List.mem_cons_self
    exact absurd hmem (by decide)
  have hnone : ∀ f, ¬ Pattern.Hides inquiry f := by
    intro f
    have hall : ∀ token ∈ Pattern.tokensFrom 0 (Weight.strip inquiry), token.hides f = false := by
      rcases f with (_ | _ | _) | _ <;> decide +kernel
    rintro ⟨token, htoken, hhides⟩
    rw [hall token htoken] at hhides
    cases hhides
  have hoptional : (Entry.ofText inquiry).shape.has .optional := by decide +kernel
  refine ⟨is, his, ?_, (hscanned {}).kind happart hnone, by decide +kernel⟩
  exact ((hscanned {}).meant .optional (fun hf => nomatch hf) hoptional).resolve_right (hnone _)

/-- The scan and the expression of a well-formed pattern do not agree. -/
def Misread (pattern : Text) (f : Feature) : Prop :=
  Pattern.check pattern = .ok () ∧ ∃ is, Pattern.items (Weight.strip pattern) = .ok is ∧
    (Entry.ofText pattern).shape.has f ≠ (Pattern.expression {} is).has f

theorem Misread.of_toOption {pattern : Text} {f : Feature} (hcheck : Pattern.check pattern = .ok ())
    (h : ((Pattern.items (Weight.strip pattern)).toOption.map fun is =>
      (Pattern.expression {} is).has f) = some !(Entry.ofText pattern).shape.has f) :
    Misread pattern f := by
  obtain ⟨is, his⟩ := Pattern.items_of_check hcheck
  rw [his] at h
  refine ⟨hcheck, is, his, fun hsame => ?_⟩
  have hhas : (Pattern.expression {} is).has f = !(Entry.ofText pattern).shape.has f :=
    Option.some.inj h
  rw [hsame, Bool.eq_not_self] at hhas
  exact hhas

/-- An underscore in the name of an array or in a tag, other signs after a backslash, and an
underscore that only an annotation parts from a backslash. -/
theorem scan_misled :
    Misread "@my_list" (.wild .letters) ∧ (Entry.ofText "@my_list").kind = .letters ∧
    Misread "<get my_name>" (.wild .letters) ∧ (Entry.ofText "<get my_name>").kind = .letters ∧
    Misread "<get a#>" (.wild .number) ∧ Misread "\\*" (.wild .anything) ∧
    (Entry.ofText "\\*").kind = .anything ∧ Misread "\\[" .optional ∧
    Misread "\\\x7bweight=1\x7d_" (.wild .letters) ∧
    (Entry.ofText "\\\x7bweight=1\x7d_").kind = .atomic := by
  refine ⟨?_, by decide +kernel, ?_, by decide +kernel, ?_, ?_, by decide +kernel, ?_, ?_,
    by decide +kernel⟩ <;>
  · apply Misread.of_toOption
    · decide +kernel
    · decide +kernel

end Dialogue
