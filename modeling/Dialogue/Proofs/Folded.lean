import Dialogue.Proofs.Commands
import Dialogue.Proofs.Lowered
import Dialogue.Proofs.Table

/-! What folding reaches. A reader lowers the line that a trigger begins on and the name that a label
opens a topic with. The lines that continue a trigger and the topics that a label refers to stay as
they are written, and a reference that is written in another case refers to nothing. -/
namespace Dialogue

open Text

namespace Topic

def patterns (t : Topic) : List Text := t.rules.map (·.pattern)

/-- The topics that this one includes or inherits. -/
def references (t : Topic) : List Text := t.includes ++ t.inherits

theorem patterns_eq (t : Topic) : t.patterns = t.calls.map Prod.fst := by
  rw [patterns, calls, List.map_map]
  rfl

theorem patterns_addEdges (mode : Option Bool) (fields : List Text) (t : Topic) :
    (Reading.addEdges mode fields t).patterns = t.patterns := by
  rw [patterns_eq, calls_addEdges, patterns_eq]

theorem patterns_addRule (t : Topic) (r : Rule) :
    (t.addRule r).patterns = t.patterns ++ [r.pattern] := List.map_append

theorem patterns_alterRule {f : Rule → Rule}
    (hf : ∀ r, (f r).pattern = r.pattern ∧ (f r).previous = r.previous) (t : Topic) (index : Nat) :
    (t.alterRule index f).patterns = t.patterns := by
  rw [patterns_eq, calls_alterRule hf, patterns_eq]

theorem mem_references_addInclude {t : Topic} {name x : Text} :
    x ∈ (t.addInclude name).references ↔ x ∈ t.references ∨ x = name := by
  rw [references, addInclude, references, List.mem_append, mem_addName, List.mem_append, or_right_comm]

theorem mem_references_addInherit {t : Topic} {name x : Text} :
    x ∈ (t.addInherit name).references ↔ x ∈ t.references ∨ x = name := by
  rw [references, addInherit, references, List.mem_append, mem_addName, List.mem_append, or_assoc]

/-- A name is added as the last of the words `includes` and `inherits` says. -/
def addEdge : (mode : Option Bool) → Text → Topic → Topic
  | some true, name, t => t.addInclude name
  | some false, name, t => t.addInherit name
  | none, _, t => t

theorem addEdges_cons (mode : Option Bool) (field : Text) (fields : List Text) (t : Topic) :
    Reading.addEdges mode (field :: fields) t =
      if field = "includes" then Reading.addEdges (some true) fields t
      else if field = "inherits" then Reading.addEdges (some false) fields t
      else Reading.addEdges mode fields (t.addEdge mode field) := by
  conv => lhs; unfold Reading.addEdges
  cases mode with
  | none => rfl
  | some inclusion => cases inclusion <;> rfl

theorem addEdges_kind {field : Text} (h : Written.isEdgeKind field = true) (mode : Option Bool)
    (fields : List Text) (t : Topic) : ∃ inclusion,
      Reading.addEdges mode (field :: fields) t = Reading.addEdges (some inclusion) fields t := by
  rw [Written.isEdgeKind, Bool.or_eq_true, decide_eq_true_iff, decide_eq_true_iff] at h
  rw [addEdges_cons]
  by_cases hincludes : field = "includes"
  · exact ⟨true, if_pos hincludes⟩
  · exact ⟨false, by rw [if_neg hincludes, if_pos (h.resolve_left hincludes)]⟩

theorem addEdges_name {field : Text} (h : Written.isEdgeKind field = false) (mode : Option Bool)
    (fields : List Text) (t : Topic) :
    Reading.addEdges mode (field :: fields) t =
      Reading.addEdges mode fields (t.addEdge mode field) := by
  rw [Written.isEdgeKind, Bool.or_eq_false_iff, decide_eq_false_iff_not, decide_eq_false_iff_not] at h
  rw [addEdges_cons, if_neg h.1, if_neg h.2]

theorem mem_references_addEdges_some (inclusion : Bool) (fields : List Text) (t : Topic) (x : Text) :
    x ∈ (Reading.addEdges (some inclusion) fields t).references ↔
      x ∈ t.references ∨ x ∈ fields.filter (!Written.isEdgeKind ·) := by
  induction fields generalizing inclusion t with
  | nil => exact ⟨Or.inl, fun h => h.resolve_right List.not_mem_nil⟩
  | cons field fields ih =>
    cases hkind : Written.isEdgeKind field with
    | true =>
      obtain ⟨inclusion', heq⟩ := addEdges_kind hkind (some inclusion) fields t
      rw [heq, ih, List.filter_cons_of_neg (by rw [hkind]; decide)]
    | false =>
      rw [addEdges_name hkind, ih, List.filter_cons_of_pos (by rw [hkind]; rfl), List.mem_cons,
        ← or_assoc]
      cases inclusion with
      | true => exact or_congr_left mem_references_addInclude
      | false => exact or_congr_left mem_references_addInherit

theorem mem_references_addEdges (fields : List Text) (t : Topic) (x : Text) :
    x ∈ (Reading.addEdges none fields t).references ↔
      x ∈ t.references ∨ x ∈ Written.edgeNames fields := by
  induction fields with
  | nil => exact ⟨Or.inl, fun h => h.resolve_right List.not_mem_nil⟩
  | cons field fields ih =>
    unfold Written.edgeNames
    cases hkind : Written.isEdgeKind field with
    | true =>
      obtain ⟨inclusion, heq⟩ := addEdges_kind hkind none fields t
      rw [heq, mem_references_addEdges_some, List.dropWhile_cons_of_neg (by rw [hkind]; decide),
        List.filter_cons_of_neg (by rw [hkind]; decide)]
    | false =>
      rw [addEdges_name hkind, List.dropWhile_cons_of_pos (by rw [hkind]; rfl)]
      exact ih

end Topic

/-- The pattern that a trigger is read as. -/
def Written.pattern? (settings : Settings) (w : Written) : Option Text :=
  if w.sign = '+' then some (w.carried settings) else none

/-! ### What the topics of a document hold -/

/-- An altered topic holds what it held before and what is new. -/
theorem Table.mem_flatMap_alter {β γ : Type} {g : β → List γ} {absent : β} (habsent : g absent = [])
    {f : β → β} {new : List γ} (hf : ∀ v x, x ∈ g (f v) ↔ x ∈ g v ∨ x ∈ new) (t : Table β)
    (key : Text) (x : γ) :
    x ∈ (t.alter key absent f).entries.flatMap (fun e => g e.2) ↔
      x ∈ t.entries.flatMap (fun e => g e.2) ∨ x ∈ new := by
  obtain ⟨entries⟩ := t
  change x ∈ (alterEntry key absent f entries).flatMap (fun e => g e.2) ↔
    x ∈ entries.flatMap (fun e => g e.2) ∨ x ∈ new
  induction entries with
  | nil =>
    rw [alterEntry, List.flatMap_singleton, hf, habsent]
    rfl
  | cons e entries ih =>
    obtain ⟨k, v⟩ := e
    rw [alterEntry, List.flatMap_cons, List.mem_append]
    split
    · rw [List.flatMap_cons, List.mem_append, hf, or_right_comm]
    · rw [List.flatMap_cons, List.mem_append, ih, or_assoc]

namespace Document

/-- What all topics together hold. -/
def collect (g : Topic → List Text) (doc : Document) : List Text :=
  doc.topics.entries.flatMap fun e => g e.2

def patterns (doc : Document) : List Text := doc.collect Topic.patterns

/-- The topics that others include or inherit. -/
def references (doc : Document) : List Text := doc.collect Topic.references

theorem mem_collect_alterTopic {g : Topic → List Text} (hempty : g {} = []) {f : Topic → Topic}
    {new : List Text} (hf : ∀ t x, x ∈ g (f t) ↔ x ∈ g t ∨ x ∈ new) (doc : Document) (name x : Text) :
    x ∈ (doc.alterTopic name f).collect g ↔ x ∈ doc.collect g ∨ x ∈ new :=
  Table.mem_flatMap_alter hempty hf doc.topics name x

theorem mem_collect_alterTopic_same {g : Topic → List Text} (hempty : g {} = []) {f : Topic → Topic}
    (hf : ∀ t, g (f t) = g t) (doc : Document) (name x : Text) :
    x ∈ (doc.alterTopic name f).collect g ↔ x ∈ doc.collect g := by
  have hnone : ∀ t x, x ∈ g (f t) ↔ x ∈ g t ∨ x ∈ ([] : List Text) := fun t x => by
    rw [hf, or_iff_left List.not_mem_nil]
  rw [mem_collect_alterTopic hempty hnone, or_iff_left List.not_mem_nil]

theorem collect_congr {doc doc' : Document} (h : doc'.topics = doc.topics) (g : Topic → List Text) :
    doc'.collect g = doc.collect g := by
  rw [collect, h, collect]

theorem mem_keys_alterTopic (doc : Document) (name : Text) (f : Topic → Topic) (x : Text) :
    x ∈ (doc.alterTopic name f).topics.keys ↔ x ∈ doc.topics.keys ∨ x = name := by
  rw [alterTopic, Table.keys_alter, Topic.mem_addName]

end Document

namespace Reading

variable {settings : Settings} {w : Written} {ws : List Written} {r r' : Reading}

/-- The name that a label opens a topic with. -/
def labelName (foldCase : Bool) (line : Text) : Text :=
  if (words line).headD [] = "begin" then Topic.begin
  else if foldCase then lower (((words line).drop 1).headD []) else ((words line).drop 1).headD []

theorem openLabel_of_isLabel (h : w.IsLabel) (foldCase : Bool) (r : Reading) :
    openLabel foldCase w.text r =
      { r with
        document := r.document.alterTopic (labelName foldCase w.text)
          (addEdges none ((words w.text).drop 2))
        topic := labelName foldCase w.text
        rule := none } :=
  if_pos h.2

/-- What a kind of command brings to the topics stays there until the end. -/
theorem Effects.mem_collect {g : Topic → List Text} {new : Written → List Text}
    (hstep : ∀ {w r r'}, Effect settings w r r' →
      ∀ x, x ∈ r'.document.collect g ↔ x ∈ r.document.collect g ∨ x ∈ new w)
    (h : Effects settings ws r r') (x : Text) :
    x ∈ r'.document.collect g ↔ x ∈ r.document.collect g ∨ ∃ w ∈ ws, x ∈ new w := by
  induction h with
  | done r => simp
  | skip hsame _ ih => rw [ih, Document.collect_congr hsame.topics]
  | next heffect _ ih => rw [ih, hstep heffect, or_assoc, List.exists_mem_cons_iff]

theorem respond_cases (f : Rule → Rule) (r : Reading) : respond f r = r ∨
    ∃ topic position, r.rule = some (topic, position) ∧ respond f r =
      { r with document := r.document.alterTopic topic (·.alterRule position f) } := by
  unfold respond
  split
  · exact Or.inr ⟨_, _, ‹_›, rfl⟩
  · exact Or.inl rfl

theorem mem_collect_respond {g : Topic → List Text} (hempty : g {} = []) {f : Rule → Rule}
    (hg : ∀ t index, g (t.alterRule index f) = g t) (r : Reading) (x : Text) :
    x ∈ (respond f r).document.collect g ↔ x ∈ r.document.collect g := by
  rcases respond_cases f r with heq | ⟨topic, position, -, heq⟩
  · rw [heq]
  · rw [heq]
    exact Document.mem_collect_alterTopic_same hempty (fun t => hg t position) ..

theorem Effect.mem_patterns (h : Effect settings w r r') (x : Text) :
    x ∈ r'.document.patterns ↔ x ∈ r.document.patterns ∨ x ∈ (w.pattern? settings).toList := by
  unfold Written.pattern? Document.patterns
  cases h with
  | label h =>
    rw [openLabel_of_isLabel h, if_neg (by rw [h.1]; decide),
      Document.mem_collect_alterTopic_same rfl (Topic.patterns_addEdges _ _)]
    exact (or_iff_left List.not_mem_nil).symm
  | trigger hsign previous =>
    rw [if_pos hsign]
    refine Document.mem_collect_alterTopic rfl (fun t x => ?_) ..
    rw [Topic.patterns_addRule, List.mem_append]
    rfl
  | response hlabel hsign hf =>
    rw [if_neg hsign, mem_collect_respond rfl (Topic.patterns_alterRule hf)]
    exact (or_iff_left List.not_mem_nil).symm
  | other hlabel hsign hsame =>
    rw [if_neg hsign, Document.collect_congr hsame.topics]
    exact (or_iff_left List.not_mem_nil).symm

theorem Effect.mem_references (h : Effect settings w r r') (x : Text) :
    x ∈ r'.document.references ↔ x ∈ r.document.references ∨ x ∈ w.references := by
  unfold Written.references Document.references
  cases h with
  | label h =>
    rw [openLabel_of_isLabel h, if_pos h]
    exact Document.mem_collect_alterTopic rfl (Topic.mem_references_addEdges _) ..
  | trigger hsign previous =>
    rw [if_neg fun h => absurd (hsign.symm.trans h.1) (by decide), or_iff_left List.not_mem_nil]
    apply Document.mem_collect_alterTopic_same
    · rfl
    · exact fun _ => rfl
  | response hlabel hsign hf =>
    rw [if_neg hlabel, mem_collect_respond rfl fun _ _ => rfl]
    exact (or_iff_left List.not_mem_nil).symm
  | other hlabel hsign hsame =>
    rw [if_neg hlabel, Document.collect_congr hsame.topics]
    exact (or_iff_left List.not_mem_nil).symm

/-! ### Names of topics -/

/-- The names of all topics are folded, also of those that are still to come. -/
structure FoldedNames (r : Reading) : Prop where
  topic : Folded r.topic
  rule : ∀ topic position, r.rule = some (topic, position) → Folded topic
  keys : ∀ name ∈ r.document.topics.keys, Folded name

theorem FoldedNames.empty : FoldedNames {} where
  topic := by decide
  rule _ _ h := nomatch h
  keys _ h := nomatch h

theorem FoldedNames.keys_alterTopic (h : r.FoldedNames) {name : Text} (hname : Folded name)
    (f : Topic → Topic) : ∀ x ∈ (r.document.alterTopic name f).topics.keys, Folded x := by
  intro x hx
  rcases (Document.mem_keys_alterTopic ..).mp hx with hold | rfl
  · exact h.keys x hold
  · exact hname

theorem SameTopics.foldedNames (h : SameTopics r r') (hr : r.FoldedNames) : r'.FoldedNames where
  topic := by
    rcases h.topic with heq | heq
    · exact heq ▸ hr.topic
    · rw [heq]
      decide
  rule := h.rule ▸ hr.rule
  keys := h.topics ▸ hr.keys

theorem folded_labelName (line : Text) : Folded (labelName true line) := by
  unfold labelName
  split
  · decide
  · exact folded_lower _

theorem Effect.foldedNames (hfold : settings.foldCase = true) (h : Effect settings w r r')
    (hr : r.FoldedNames) : r'.FoldedNames := by
  cases h with
  | label h =>
    rw [openLabel_of_isLabel h, hfold]
    have hname := folded_labelName w.text
    exact ⟨hname, fun _ _ h => (nomatch h), hr.keys_alterTopic hname _⟩
  | trigger hsign previous =>
    refine ⟨hr.topic, ?_, hr.keys_alterTopic hr.topic _⟩
    rintro topic position ⟨⟩
    exact hr.topic
  | @response _ _ f _ =>
    rcases respond_cases f r with heq | ⟨topic, position, hrule, heq⟩
    · rwa [heq]
    · rw [heq]
      exact { hr with keys := hr.keys_alterTopic (hr.rule topic position hrule) _ }
  | other hlabel hsign hsame => exact hsame.foldedNames hr

theorem Effects.foldedNames (hfold : settings.foldCase = true) (h : Effects settings ws r r')
    (hr : r.FoldedNames) : r'.FoldedNames := by
  induction h with
  | done r => exact hr
  | skip hsame _ ih => exact ih (hsame.foldedNames hr)
  | next heffect _ ih => exact ih (heffect.foldedNames hfold hr)

theorem Effect.mem_keys (h : Effect settings w r r') (x : Text)
    (hx : x ∈ r.document.topics.keys) : x ∈ r'.document.topics.keys := by
  have halter : ∀ name f, x ∈ (r.document.alterTopic name f).topics.keys := fun name f =>
    (Document.mem_keys_alterTopic ..).mpr (Or.inl hx)
  cases h with
  | label h =>
    rw [openLabel_of_isLabel h]
    exact halter _ _
  | trigger => exact halter _ _
  | @response _ _ f _ =>
    rcases respond_cases f r with heq | ⟨topic, position, -, heq⟩
    · rwa [heq]
    · rw [heq]
      exact halter _ _
  | other hlabel hsign hsame => rwa [hsame.topics]

theorem Effects.mem_keys (h : Effects settings ws r r') (x : Text)
    (hx : x ∈ r.document.topics.keys) : x ∈ r'.document.topics.keys := by
  induction h with
  | done r => exact hx
  | skip hsame _ ih => exact ih (hsame.topics ▸ hx)
  | next heffect _ ih => exact ih (heffect.mem_keys x hx)

/-- A label opens the topic that it names in small letters. -/
theorem Effect.opens (hfold : settings.foldCase = true) (h : Effect settings w r r') {name : Text}
    (hname : w.topic? = some name) : lower name ∈ r'.document.topics.keys := by
  unfold Written.topic? at hname
  split at hname
  · rename_i hlabel
    cases hname
    have hisLabel : w.IsLabel := ⟨hlabel.1, Or.inr hlabel.2⟩
    have hopen : labelName settings.foldCase w.text = lower (((words w.text).drop 1).headD []) := by
      rw [labelName, if_neg (by rw [hlabel.2]; decide), if_pos hfold]
    cases h with
    | label h =>
      rw [openLabel_of_isLabel h, hopen]
      exact (Document.mem_keys_alterTopic ..).mpr (Or.inr rfl)
    | trigger hsign => exact absurd (hsign.symm.trans hlabel.1) (by decide)
    | response h => exact absurd hisLabel h
    | other h => exact absurd hisLabel h
  · cases hname

theorem Effects.opens (hfold : settings.foldCase = true) (h : Effects settings ws r r')
    (hw : w ∈ ws) {name : Text} (hname : w.topic? = some name) :
    lower name ∈ r'.document.topics.keys := by
  induction h with
  | done r => cases hw
  | skip _ _ ih => exact ih hw
  | next heffect hrest ih =>
    rcases List.mem_cons.mp hw with rfl | hmem
    · exact hrest.mem_keys _ (heffect.opens hfold hname)
    · exact ih hmem

end Reading

/-! ### Folding -/

theorem Reading.folded_separator (sign : Char) (joiner : Joiner) :
    Folded (separator sign joiner) := by
  unfold separator
  split
  · decide
  · cases joiner <;> decide

theorem Written.folded_rest (w : Written) : Folded w.rest ↔ ∀ part ∈ w.parts, Folded part := by
  rw [rest, folded_flatten, List.forall_mem_map]
  simp only [folded_append, Reading.folded_separator, true_and]

namespace Document

variable {settings : Settings} {source code : Text} {doc : Document}

/-- Patterns are read from the triggers and from nothing else. -/
theorem mem_patterns (h : ofText settings source code = .ok doc) (x : Text) :
    x ∈ doc.patterns ↔ ∃ w ∈ commands settings source code, w.pattern? settings = some x := by
  obtain ⟨r, heffects, rfl⟩ := effects_of_ofText h
  rw [patterns, heffects.mem_collect fun h => h.mem_patterns]
  simp only [Option.mem_toList]
  exact or_iff_right List.not_mem_nil

/-- References are read from the labels and from nothing else. -/
theorem mem_references (h : ofText settings source code = .ok doc) (x : Text) :
    x ∈ doc.references ↔ ∃ w ∈ commands settings source code, x ∈ w.references := by
  obtain ⟨r, heffects, rfl⟩ := effects_of_ofText h
  rw [references, heffects.mem_collect fun h => h.mem_references]
  exact or_iff_right List.not_mem_nil

/-- With folding, the names of topics are folded. Patterns are just if the lines that continue
triggers are written so, and references are just if they are written so themselves. A topic is found
by its folded name alone, so a reference in another case refers to nothing. -/
theorem folded_as_written (hfold : settings.foldCase = true)
    (h : ofText settings source code = .ok doc) :
    (∀ name ∈ doc.topics.keys, Folded name) ∧
    ((∀ pattern ∈ doc.patterns, Folded pattern) ↔
      ∀ w ∈ commands settings source code, w.sign = '+' → ∀ part ∈ w.parts, Folded part) ∧
    ((∀ name ∈ doc.references, Folded name) ↔
      ∀ w ∈ commands settings source code, ∀ name ∈ w.references, Folded name) ∧
    ∀ w ∈ commands settings source code, ∀ name, w.topic? = some name →
      ∀ written, lower written = lower name → (doc.topics.has written = true ↔ Folded written) := by
  have hkeys : ∀ name ∈ doc.topics.keys, Folded name := by
    obtain ⟨r, heffects, rfl⟩ := effects_of_ofText h
    exact (heffects.foldedNames hfold .empty).keys
  refine ⟨hkeys, ⟨fun hpatterns w hw hsign => ?_, fun hparts pattern hpattern => ?_⟩,
    ⟨fun hreferences w hw name hname => ?_, fun hreferences name hname => ?_⟩,
    fun w hw name hname written hwritten => ?_⟩
  · have hpattern : w.pattern? settings = some (w.carried settings) := if_pos hsign
    have hcarried := hpatterns _ ((mem_patterns h _).mpr ⟨w, hw, hpattern⟩)
    rw [Written.carried, folded_append, Written.folded_rest] at hcarried
    exact hcarried.2
  · obtain ⟨w, hw, hsome⟩ := (mem_patterns h _).mp hpattern
    obtain ⟨hsign, hcarried⟩ := Option.ite_none_right_eq_some.mp hsome
    cases hcarried
    rw [Written.carried, if_pos ⟨hfold, hsign⟩, folded_append, Written.folded_rest]
    exact ⟨folded_lower _, hparts w hw hsign⟩
  · exact hreferences name ((mem_references h _).mpr ⟨w, hw, hname⟩)
  · obtain ⟨w, hw, hmem⟩ := (mem_references h _).mp hname
    exact hreferences w hw name hmem
  · rw [Table.has, ← Table.mem_keys]
    refine ⟨hkeys written, fun hfolded => ?_⟩
    obtain ⟨r, heffects, rfl⟩ := effects_of_ofText h
    rw [← hfolded, hwritten]
    exact heffects.opens hfold hw hname

end Document

def foldingSettings : Settings := { Settings.basic with foldCase := true }

/-- A trigger that goes on with `more`, and a topic that refers to `greeting` as `reference`. -/
def shopCode (more reference : Text) : Text :=
  "+ HELLO\n^ " ++ more ++ "\n- Hi.\n\n> topic Greeting\n+ hi\n- Hi.\n< topic\n\n" ++
    "> topic Shop inherits " ++ reference ++ "\n+ buy\n- Sold.\n< topic\n"

def shopDocument (more reference : Text) : Document where
  topics := ⟨[("random", { rules := [{ pattern := "hello" ++ more, replies := ["Hi."] }] }),
    ("greeting", { rules := [{ pattern := "hi", replies := ["Hi."] }] }),
    ("shop", { rules := [{ pattern := "buy", replies := ["Sold."] }], inherits := [reference] })]⟩

theorem ofText_shopCode : Document.ofText foldingSettings "" (shopCode "world" "greeting") =
    .ok (shopDocument "world" "greeting") :=
  Answering.ok_of_toOption (by decide +kernel)

theorem shop_folded : (∀ name ∈ (shopDocument "world" "greeting").topics.keys, Folded name) ∧
    (∀ pattern ∈ (shopDocument "world" "greeting").patterns, Folded pattern) ∧
    (∀ name ∈ (shopDocument "world" "greeting").references, Folded name) ∧
    (shopDocument "world" "greeting").topics.has "greeting" = true ∧
    (shopDocument "world" "greeting").topics.has "GREETING" = false := by
  obtain ⟨hkeys, hpatterns, hreferences, hresolves⟩ :=
    Document.folded_as_written rfl ofText_shopCode
  have hlabel : ∃ w ∈ Document.commands foldingSettings "" (shopCode "world" "greeting"),
      w.topic? = some "Greeting" := by decide +kernel
  obtain ⟨w, hw, htopic⟩ := hlabel
  have hlower := hresolves w hw _ htopic "greeting" (by decide +kernel)
  have hupper := hresolves w hw _ htopic "GREETING" (by decide +kernel)
  refine ⟨hkeys, hpatterns.mpr (by decide +kernel), hreferences.mpr (by decide +kernel),
    hlower.mpr (by decide +kernel), ?_⟩
  exact Bool.eq_false_iff.mpr fun hhas => absurd (hupper.mp hhas) (by decide +kernel)

/-- Folding leaves a continuation and a reference in the case they are written in, and the reference
misses the topic although the label of the topic is written in the same way. -/
theorem shop_unfolded : Document.ofText foldingSettings "" (shopCode "WORLD" "Greeting") =
      .ok (shopDocument "WORLD" "Greeting") ∧
    "helloWORLD".toList ∈ (shopDocument "WORLD" "Greeting").patterns ∧
    ¬ Folded "helloWORLD" ∧
    "Greeting".toList ∈ (shopDocument "WORLD" "Greeting").references ∧
    ¬ Folded "Greeting" ∧
    (shopDocument "WORLD" "Greeting").topics.has (lower "Greeting") = true ∧
    (shopDocument "WORLD" "Greeting").topics.has "Greeting" = false :=
  ⟨Answering.ok_of_toOption (by decide +kernel), by decide +kernel, by decide +kernel,
    by decide +kernel, by decide +kernel, by decide +kernel, by decide +kernel⟩

end Dialogue
