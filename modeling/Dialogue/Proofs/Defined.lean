import Dialogue.Proofs.Brackets
import Dialogue.Proofs.Inert
import Dialogue.Proofs.Lines
import Dialogue.Proofs.Process

/-! Where the characters of a definition come from. What a script says of variables is written in it, but
for what stands between a line and its continuations. -/
namespace Dialogue

open Text

variable {P : Char → Prop}

namespace Text

variable {t : Text}

/-- An edited text consists of what was there and what has been put in. -/
theorem forall_edit {read : Reader Text}
    (hread : ∀ u new rest, (∀ c ∈ u, P c) → read u = some (new, rest) → ∀ c ∈ new, P c)
    (ht : ∀ c ∈ t, P c) : ∀ c ∈ edit read t, P c := by
  have hfrom : ∀ skip, ∀ c ∈ editFrom read skip t, P c := by
    intro skip
    fun_induction editFrom read skip t with
    | case1 => exact List.forall_mem_nil P
    | case2 skip d t ih => exact ih (List.forall_mem_cons.mp ht).2
    | case3 d t new rest h ih =>
      rw [List.forall_mem_append]
      exact ⟨hread _ new rest ht h, ih (List.forall_mem_cons.mp ht).2⟩
    | case4 d t h ih =>
      rw [List.forall_mem_cons] at ht ⊢
      exact ⟨ht.1, ih ht.2⟩
  exact hfrom 0

theorem forall_replace {mark new : Text} (hnew : ∀ c ∈ new, P c) (ht : ∀ c ∈ t, P c) :
    ∀ c ∈ replace mark new t, P c := by
  refine forall_edit (fun u put rest _ hread => ?_) ht
  obtain ⟨_, -, heq⟩ := Option.map_eq_some_iff.mp hread
  cases heq
  exact hnew

theorem subset_of_cut? {mark before rest : Text} (h : cut? mark t = some (before, rest)) :
    before ⊆ t ∧ rest ⊆ t := by
  induction t generalizing before with
  | nil =>
    rw [cut?] at h
    split at h
    · cases h
      exact ⟨fun _ => id, fun _ => id⟩
    · cases h
  | cons d t ih =>
    rw [cut?] at h
    split at h
    · rename_i after hmark
      cases h
      rw [← List.isPrefixOf?_eq_some_iff_append_eq.mp hmark]
      exact ⟨List.nil_subset _, List.subset_append_right _ _⟩
    · obtain ⟨⟨before', rest'⟩, hcut, heq⟩ := Option.map_eq_some_iff.mp h
      cases heq
      obtain ⟨hbefore, hrest⟩ := ih hcut
      exact ⟨List.cons_subset_cons d hbefore, List.subset_cons_of_subset d hrest⟩

theorem subset_of_cutAt? {sep : Char → Bool} {before rest : Text}
    (h : cutAt? sep t = some (before, rest)) : before ⊆ t ∧ rest ⊆ t := by
  obtain ⟨d, -, rfl⟩ := eq_of_cutAt? h
  exact ⟨List.subset_append_left _ _, fun _ hc => List.mem_append_right _ (List.mem_cons_of_mem d hc)⟩

theorem trim_subset (t : Text) : trim t ⊆ t := fun _ => mem_of_mem_trim

end Text

namespace Definition

theorem forall_ofLine {t : Text} (ht : ∀ c ∈ t, P c) :
    (∀ c ∈ (ofLine t).name, P c) ∧ ∀ c ∈ (ofLine t).value, P c := by
  unfold ofLine
  split
  rename_i left value hsides
  have hleft : left ⊆ t ∧ value ⊆ t := by
    split at hsides
    · rename_i before after hcut
      cases hsides
      obtain ⟨hbefore, hafter⟩ := subset_of_cutAt? hcut
      exact ⟨List.Subset.trans (trim_subset before) hbefore, List.Subset.trans (trim_subset after) hafter⟩
    · cases hsides
      exact ⟨trim_subset t, List.nil_subset t⟩
  split
  rename_i kind name hnames
  have hname : name ⊆ left := by
    split at hnames
    · rename_i before after hcut
      cases hnames
      exact List.Subset.trans (trim_subset after) (subset_of_cutAt? hcut).2
    · cases hnames
      exact List.nil_subset left
  have hvalue : ∀ c ∈ value, P c := fun c hc => ht c (hleft.2 hc)
  refine ⟨fun c hc => ht c (hleft.1 (hname hc)), ?_⟩
  dsimp only
  split
  · exact hvalue
  · exact forall_replace (List.forall_mem_nil P) hvalue

end Definition

/-- The variables that a script defines, and their values, consist of such characters. -/
structure Document.Consists (P : Char → Prop) (doc : Document) : Prop where
  vars : ∀ e ∈ doc.vars, (∀ c ∈ e.1, P c) ∧ ∀ c ∈ e.2, P c
  globals : ∀ e ∈ doc.globals, (∀ c ∈ e.1, P c) ∧ ∀ c ∈ e.2, P c

namespace Document.Consists

variable {doc other : Document}

theorem congr (h : doc.Consists P) (hvars : other.vars = doc.vars) (hglobals : other.globals = doc.globals) :
    other.Consists P :=
  ⟨hvars ▸ h.vars, hglobals ▸ h.globals⟩

theorem define (h : doc.Consists P) {d : Definition} (hname : ∀ c ∈ d.name, P c)
    (hvalue : ∀ c ∈ d.value, P c) : (doc.define d).Consists P := by
  have hadd : ∀ {entries : List (Text × Text)}, (∀ e ∈ entries, (∀ c ∈ e.1, P c) ∧ ∀ c ∈ e.2, P c) →
      ∀ e ∈ entries ++ [(d.name, d.value)], (∀ c ∈ e.1, P c) ∧ ∀ c ∈ e.2, P c := by
    intro entries hentries
    rw [List.forall_mem_append, List.forall_mem_singleton]
    exact ⟨hentries, hname, hvalue⟩
  rw [Document.define]
  split_ifs
  · exact ⟨h.vars, hadd h.globals⟩
  · exact ⟨hadd h.vars, h.globals⟩
  all_goals exact ⟨h.vars, h.globals⟩

end Document.Consists

namespace Reading

variable {settings : Settings} {source line : Text} {following : List Text} {number : Nat} {sign : Char}
  {r s : Reading}

theorem withoutComment_subset (t : Text) : withoutComment t ⊆ t := by
  refine List.Subset.trans (trim_subset _) ?_
  cases hcut : cut? " // " t with
  | none => exact fun _ => id
  | some found => exact (subset_of_cut? hcut).1

theorem subset_of_split? {rest : Text} (h : Command.split? line = some (sign, rest)) : rest ⊆ line := by
  rw [Command.eq_of_split? h]
  exact List.subset_cons_self sign rest

/-- A definition goes on in the lines below it, behind marks. -/
theorem forall_gather (joiner : Joiner) (hmark : ∀ c ∈ lineMark, P c) (hline : ∀ c ∈ line, P c)
    (hfollowing : ∀ next ∈ following, ∀ c ∈ next, P c) :
    ∀ c ∈ (gather '!' joiner following line).1, P c := by
  induction following generalizing line with
  | nil => exact hline
  | cons next following ih =>
    rw [List.forall_mem_cons] at hfollowing
    obtain ⟨hnext, hfollowing⟩ := hfollowing
    rw [gather]
    split
    · exact ih hline hfollowing
    · rename_i nextSign rest hsplit
      have hrest : ∀ c ∈ trim rest, P c := fun c hc =>
        hnext c (trim_subset next (subset_of_split? hsplit (trim_subset rest hc)))
      dsimp only
      split
      · refine ih ?_ hfollowing
        rw [if_pos rfl, List.forall_mem_append, List.forall_mem_append]
        exact ⟨⟨hline, hmark⟩, hrest⟩
      · split
        · exact ih hline hfollowing
        · exact hline

/-- What is read up to there, unless there is a fault, defines variables with such characters only. -/
def Stays (P : Char → Prop) (x : Except Fault Reading) : Prop := ∀ r, x = .ok r → r.document.Consists P

theorem stays_ok (h : r.document.Consists P) : Stays P (.ok r) := by
  rintro _ ⟨⟩
  exact h

theorem stays_error (fault : Fault) : Stays P (.error fault) := fun _ h => nomatch h

theorem stays_define (hr : r.document.Consists P) (hline : ∀ c ∈ line, P c) :
    Stays P (define source number line r) := by
  obtain ⟨hname, hvalue⟩ := Definition.forall_ofLine hline
  rw [Reading.define]
  split
  · split
    · exact stays_error _
    · exact stays_ok hr
  · split
    · exact stays_ok hr
    · split
      · refine stays_ok ?_
        split <;> exact hr
      · exact stays_ok (hr.define hname hvalue)

theorem consists_openLabel (hr : r.document.Consists P) (foldCase : Bool) :
    (openLabel foldCase line r).document.Consists P := by
  unfold openLabel
  dsimp only
  split
  · exact hr.congr rfl rfl
  · split <;> exact hr

theorem consists_respond (hr : r.document.Consists P) (f : Rule → Rule) :
    (respond f r).document.Consists P := by
  rw [respond]
  split
  · exact hr.congr rfl rfl
  · exact hr

theorem consists_objectLine (hr : r.document.Consists P) (o : ObjectSource) :
    (objectLine r o line).document.Consists P := by
  unfold objectLine
  dsimp only
  split
  · split
    · exact hr
    · exact hr.congr rfl rfl
  · exact hr

/-- No other command is about variables. -/
theorem stays_command (hr : r.document.Consists P) (hline : sign = '!' → ∀ c ∈ line, P c)
    (previous : Option Text) : Stays P (command settings source number sign line previous r) := by
  unfold command
  split
  · exact stays_define hr (hline rfl)
  · exact stays_ok (consists_openLabel hr _)
  · unfold closeLabel
    refine stays_ok ?_
    split_ifs <;> exact hr
  · exact stays_ok (hr.congr rfl rfl)
  · exact stays_ok (consists_respond hr _)
  · exact stays_ok (consists_respond hr _)
  · exact stays_ok (consists_respond hr _)
  · exact stays_ok hr

theorem stays_commandLine (hmark : ∀ c ∈ lineMark, P c) {rest : Text} (hrest : ∀ c ∈ rest, P c)
    (hfollowing : ∀ next ∈ following, ∀ c ∈ next, P c) (hr : r.document.Consists P) :
    Stays P (commandLine settings source number sign rest following r) := by
  unfold commandLine
  dsimp only
  split
  · exact stays_error _
  · refine stays_command hr (fun hsign => ?_) _
    subst hsign
    rw [if_neg (by decide : ¬ '!' = '^'), if_neg fun h => absurd h.2 (by decide)]
    exact forall_gather _ hmark (fun c hc => hrest c (withoutComment_subset rest hc)) hfollowing

theorem stays_step (hmark : ∀ c ∈ lineMark, P c) (hline : ∀ c ∈ line, P c)
    (hfollowing : ∀ next ∈ following, ∀ c ∈ next, P c) (hr : r.document.Consists P) :
    Stays P (step settings source number line following r) := by
  unfold step
  split
  · exact stays_ok hr
  split
  · exact stays_ok (consists_objectLine hr _)
  split
  · exact stays_ok hr
  split
  · exact stays_ok hr
  split
  · exact stays_ok hr
  split
  · exact stays_ok hr
  split
  · rename_i hsplit
    exact stays_commandLine hmark (fun c hc => hline c (subset_of_split? hsplit hc)) hfollowing hr
  · exact stays_ok hr

theorem stays_steps (hmark : ∀ c ∈ lineMark, P c) {lines : List Text}
    (hlines : ∀ line ∈ lines, ∀ c ∈ line, P c) (hr : r.document.Consists P) :
    Stays P (steps settings source number lines r) := by
  induction lines generalizing number r with
  | nil => exact stays_ok hr
  | cons line lines ih =>
    rw [List.forall_mem_cons] at hlines
    obtain ⟨hline, hlines⟩ := hlines
    intro s hs
    obtain ⟨r', hstep, hsteps⟩ := Answering.ok_of_bind hs
    have htrim : ∀ c ∈ trim line, P c := fun c hc => hline c (trim_subset line hc)
    exact ih hlines (stays_step hmark htrim hlines hr r' hstep) s hsteps

end Reading

/-- A script defines nothing that is not written in it. -/
theorem Document.consists_ofText {settings : Settings} {source code : Text} {doc : Document}
    (hmark : ∀ c ∈ lineMark, P c) (hcode : ∀ c ∈ code, P c)
    (h : Document.ofText settings source code = .ok doc) : doc.Consists P := by
  obtain ⟨r, hr, rfl⟩ := Answering.ok_of_map h
  have hlines : ∀ line ∈ pieces (· = '\n') code, ∀ c ∈ line, P c :=
    fun line hline c hc => hcode c (mem_of_mem_pieces hline hc)
  have hempty : ({} : Reading).document.Consists P := ⟨fun _ h => (nomatch h), fun _ h => (nomatch h)⟩
  exact Reading.stays_steps hmark hlines hempty r hr

end Dialogue
