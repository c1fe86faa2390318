import Dialogue.Proofs.Order
import Dialogue.Proofs.Playbook
import Dialogue.Proofs.Table
import Mathlib.Data.List.Flatten

/-! The order in which scripts are loaded makes no difference to the order in which triggers are
tried. What is loaded is the same up to the order of rules and references, which moves the entries
of a pool about but neither adds nor drops one, and ranking leaves no choice between entries. -/
namespace Dialogue

/-- Where the steps of a fold can be exchanged, so can everything that is folded. -/
theorem foldl_perm {α β : Type} {R : β → β → Prop} {f : β → α → β}
    (trans : ∀ {s t u}, R s t → R t u → R s u)
    (congr : ∀ {s t} a, R s t → R (f s a) (f t a))
    (comm : ∀ {s t} a b, R s t → R (f (f s a) b) (f (f t b) a))
    {l l' : List α} (h : l.Perm l') {s t : β} (hst : R s t) (htt : R t t) :
    R (l.foldl f s) (l'.foldl f t) := by
  have hfold : ∀ (l : List α) {s t}, R s t → R (l.foldl f s) (l.foldl f t) := by
    intro l
    induction l with
    | nil => exact id
    | cons a l ih => exact fun hst => ih (congr a hst)
  induction h generalizing s t with
  | nil => exact hst
  | cons a _ ih => exact ih (congr a hst) (congr a htt)
  | swap a b l => exact hfold l (comm b a hst)
  | trans _ _ ih ih' => exact trans (ih hst htt) (ih' htt htt)

namespace Topic

/-- The same rules and references in some other order. -/
structure Similar (t u : Topic) : Prop where
  rules : t.rules.Perm u.rules
  includes : t.includes.Perm u.includes
  inherits : t.inherits.Perm u.inherits

namespace Similar

variable {t u v w : Topic}

theorem refl (t : Topic) : Similar t t := ⟨.refl _, .refl _, .refl _⟩

theorem trans (h : Similar t u) (k : Similar u v) : Similar t v :=
  ⟨h.rules.trans k.rules, h.includes.trans k.includes, h.inherits.trans k.inherits⟩

end Similar

theorem addNames_perm {names names' added added' : List Text} (h : names.Perm names')
    (hadded : added.Perm added') :
    (added.foldl addName names).Perm (added'.foldl addName names') :=
  foldl_perm (R := List.Perm) List.Perm.trans (fun a h => addName_perm h a)
    (fun a b h => (addName_comm _ a b).trans (addName_perm (addName_perm h b) a)) hadded h (.refl _)

theorem merge_similar {t t' u u' : Topic} (ht : Similar t t') (hu : Similar u u') :
    Similar (t.merge u) (t'.merge u') where
  rules := ht.rules.append hu.rules
  includes := addNames_perm ht.includes hu.includes
  inherits := addNames_perm ht.inherits hu.inherits

theorem merge_comm (t u v : Topic) : Similar ((t.merge u).merge v) ((t.merge v).merge u) where
  rules := by
    simp only [merge, List.append_assoc]
    exact List.perm_append_comm.append_left _
  includes := by
    simp only [merge, ← List.foldl_append]
    exact addNames_perm (.refl _) List.perm_append_comm
  inherits := by
    simp only [merge, ← List.foldl_append]
    exact addNames_perm (.refl _) List.perm_append_comm

end Topic

namespace Topics

/-- Similar topics under the same names. -/
structure Similar (ts us : Topics) : Prop where
  keys : ts.keys.Perm us.keys
  topics : ∀ name, Option.Rel Topic.Similar (ts.find? name) (us.find? name)

namespace Similar

variable {ts us vs : Topics}

theorem refl (ts : Topics) : Similar ts ts where
  keys := .refl _
  topics name := by
    cases ts.find? name with
    | none => exact .none
    | some t => exact .some (.refl t)

theorem trans (h : Similar ts us) (k : Similar us vs) : Similar ts vs where
  keys := h.keys.trans k.keys
  topics name := by
    have hn := h.topics name
    have kn := k.topics name
    generalize ts.find? name = t at hn
    generalize us.find? name = u at hn kn
    generalize vs.find? name = v at kn
    cases hn with
    | none => exact kn
    | some htu =>
      cases kn with
      | some kuv => exact .some (htu.trans kuv)

/-- A topic that is not there yet counts as an empty one. -/
theorem getD (h : Similar ts us) (name : Text) :
    ((ts.find? name).getD {}).Similar ((us.find? name).getD {}) := by
  have hn := h.topics name
  generalize ts.find? name = t at hn
  generalize us.find? name = u at hn
  cases hn with
  | none => exact .refl _
  | some htu => exact htu

end Similar

def extend (ts : Topics) (part : Text × Topic) : Topics := ts.alter part.1 {} (·.merge part.2)

theorem extend_similar {ts us : Topics} (h : Similar ts us) (part : Text × Topic) :
    Similar (ts.extend part) (us.extend part) where
  keys := by
    simp only [extend, Table.keys_alter]
    exact Topic.addName_perm h.keys _
  topics name := by
    simp only [extend, Table.find?_alter]
    split
    · exact .some (Topic.merge_similar (h.getD _) (.refl _))
    · exact h.topics name

theorem extend_comm (ts : Topics) (part other : Text × Topic) :
    Similar ((ts.extend part).extend other) ((ts.extend other).extend part) where
  keys := by
    simp only [extend, Table.keys_alter]
    exact Topic.addName_comm _ _ _
  topics name := by
    simp only [extend, Table.find?_alter]
    by_cases hp : name = part.1
    · by_cases ho : name = other.1
      · have hpo : other.1 = part.1 := ho ▸ hp
        simp only [hp, hpo, if_true, Option.getD_some]
        exact .some (Topic.merge_comm _ _ _)
      · have hpo : part.1 ≠ other.1 := hp ▸ ho
        simp only [hp, hpo, if_true, if_false]
        exact .some (.refl _)
    · by_cases ho : name = other.1
      · have hpo : other.1 ≠ part.1 := ho ▸ hp
        simp only [ho, hpo, if_true, if_false]
        exact .some (.refl _)
      · simp only [hp, ho, if_false]
        exact (Similar.refl ts).topics name

/-- A topic is there once, however many parts of it there are. -/
theorem nodup_extendAll (parts : List (Text × Topic)) {ts : Topics} (h : ts.keys.Nodup) :
    (parts.foldl extend ts).keys.Nodup := by
  induction parts generalizing ts with
  | nil => exact h
  | cons part parts ih =>
    have hpart : (ts.extend part).keys.Nodup := by
      rw [extend, Table.keys_alter]
      exact Topic.nodup_addName h _
    exact ih hpart

/-- Every walk is there in both, though elsewhere in the pool. -/
theorem poolFrom_perm {ts us : Topics} (h : Similar ts us) (steps : Nat) (name : Text)
    (level : Nat) (marked : Bool) :
    (ts.poolFrom steps name level marked).Perm (us.poolFrom steps name level marked) := by
  induction steps generalizing name level marked with
  | zero => exact .refl _
  | succ steps ih =>
    have ht := h.topics name
    rw [poolFrom, poolFrom]
    generalize ts.find? name = found at ht
    generalize us.find? name = found' at ht
    cases ht with
    | none => exact .refl _
    | @some t u htu =>
      -- Both topics inherit or neither does, so both mark what they pass on.
      have hmark : t.inherits.isEmpty = u.inherits.isEmpty := htu.inherits.isEmpty_eq
      simp only [hmark]
      refine .append (.append ?_ ?_) ((htu.rules.filter _).map _)
      · exact (htu.includes.flatMap_right _).trans
          (List.Perm.flatMap_left _ fun n _ => ih n _ _)
      · exact (htu.inherits.flatMap_right _).trans
          (List.Perm.flatMap_left _ fun n _ => ih n _ _)

end Topics

namespace Entry

/-- Everything but its level an entry has from its pattern. -/
theorem ofText_inj {s t : Text} (hpattern : (ofText s).pattern = (ofText t).pattern)
    (hlevel : (ofText s).level = (ofText t).level) : ofText s = ofText t := by
  unfold ofText at *
  dsimp only at hpattern hlevel ⊢
  rw [hpattern, hlevel]

theorem compareLevels_eq_eq {a b : Option Nat} (h : compareLevels a b = .eq) : a = b := by
  cases a with
  | none =>
    cases b with
    | none => rfl
    | some _ => cases h
  | some m =>
    cases b with
    | none => cases h
    | some n => exact congrArg some (Nat.compare_eq_eq.mp h)

theorem eq_of_order_eq {s t : Text} (h : order (ofText s) (ofText t) = .eq) :
    ofText s = ofText t := by
  simp only [order, Ordering.then_eq_eq] at h
  obtain ⟨hlevel, -, -, -, -, hpattern⟩ := h
  exact ofText_inj (Std.LawfulEqCmp.eq_of_compare hpattern) (compareLevels_eq_eq hlevel)

/-- Only one way to arrange the entries of a pool agrees with their order. -/
theorem eq_arranged {pool : List Text} {es : List Entry} (hperm : es.Perm (pool.map ofText))
    (hsorted : es.Pairwise fun a b => (order a b).isLE) : es = arranged (pool.map ofText) := by
  have hsame : es.Perm (arranged (pool.map ofText)) := hperm.trans (List.mergeSort_perm _ _).symm
  refine hsame.eq_of_pairwise (fun a b ha hb hab hba => ?_) hsorted (arranged_pairwise _)
  obtain ⟨s, -, rfl⟩ := List.mem_map.mp (hperm.mem_iff.mp ha)
  obtain ⟨t, -, rfl⟩ := List.mem_map.mp (mem_arranged.mp hb)
  exact eq_of_order_eq (Std.OrientedCmp.isLE_antisymm hab hba)

/-- Ranking looks only at which entries there are and how often. -/
theorem ranked_perm {pool pool' : List Text} (h : pool.Perm pool') : ranked pool = ranked pool' := by
  have hperm : (arranged (pool.map ofText)).Perm (pool'.map ofText) :=
    (List.mergeSort_perm _ _).trans (h.map ofText)
  rw [ranked_eq, ranked_eq, eq_arranged hperm (arranged_pairwise _)]

end Entry

namespace Playbook

/-- A strict bot takes the rule. -/
def WellFormed (r : Rule) : Prop :=
  checkRules.checkPattern r.pattern = .ok () ∧
    ∀ pattern ∈ r.previous, checkRules.checkPattern pattern = .ok ()

private theorem both_eq_ok {x y : Except Fault Unit} :
    (do x; y) = .ok () ↔ x = .ok () ∧ y = .ok () := by
  cases x with
  | error fault =>
    constructor
    · intro h
      cases h
    · rintro ⟨h, -⟩
      cases h
  | ok _ => exact ⟨fun h => ⟨rfl, h⟩, fun h => h.2⟩

theorem checkRules_eq_ok {rules : List Rule} :
    checkRules rules = .ok () ↔ ∀ r ∈ rules, WellFormed r := by
  induction rules with
  | nil => simp [checkRules]
  | cons r rules ih =>
    rw [List.forall_mem_cons, ← ih, checkRules, WellFormed, both_eq_ok, and_assoc]
    refine and_congr_right fun _ => ?_
    cases r.previous with
    | none => exact both_eq_ok.trans (by simp)
    | some pattern => exact both_eq_ok.trans (by simp)

theorem checkPatterns_eq_ok {topics : Topics} : checkPatterns topics = .ok () ↔
    ∀ name t, topics.find? name = some t → ∀ r ∈ t.rules, WellFormed r := by
  rw [checkPatterns, checkRules_eq_ok]
  simp only [List.mem_flatMap, Table.sortedKeys, List.mem_mergeSort, forall_exists_index, and_imp]
  constructor
  · intro h name t ht r hr
    refine h r name (Table.mem_keys.mpr (by rw [ht]; rfl)) ?_
    rw [ht]
    exact hr
  · intro h r name _ hr
    cases ht : topics.find? name with
    | none =>
      rw [ht] at hr
      cases hr
    | some t =>
      rw [ht] at hr
      exact h name t ht r hr

theorem checkPatterns_similar {ts us : Topics} (h : Topics.Similar ts us)
    (hok : checkPatterns ts = .ok ()) : checkPatterns us = .ok () := by
  rw [checkPatterns_eq_ok] at hok ⊢
  intro name u hu r hr
  have hn := h.topics name
  rw [hu] at hn
  generalize ht : ts.find? name = found at hn
  cases hn with
  | some htu => exact hok name _ ht r (htu.rules.mem_iff.mpr hr)

end Playbook

namespace Script

/-- What has been loaded after some documents, one after the other. -/
def gather (docs : List Document) : Script := docs.foldl merge {}

theorem topics_gather (docs : List Document) :
    (gather docs).topics = (docs.flatMap (·.topics.entries)).foldl Topics.extend {} := by
  have hfold : ∀ (s : Script), (docs.foldl merge s).topics =
      (docs.flatMap (·.topics.entries)).foldl Topics.extend s.topics := by
    induction docs with
    | nil => exact fun _ => rfl
    | cons doc docs ih =>
      intro s
      rw [List.foldl_cons, ih, List.flatMap_cons, List.foldl_append]
      rfl
  exact hfold {}

theorem nodup_merge {s : Script} (h : s.topics.keys.Nodup) (doc : Document) :
    (s.merge doc).topics.keys.Nodup := Topics.nodup_extendAll doc.topics.entries h

theorem gather_similar {docs docs' : List Document} (h : docs.Perm docs') :
    Topics.Similar (gather docs).topics (gather docs').topics := by
  rw [topics_gather, topics_gather]
  have hparts := h.flatMap_right fun doc => doc.topics.entries
  refine foldl_perm (R := Topics.Similar) Topics.Similar.trans
    (fun part hst => Topics.extend_similar hst part) (fun a b hst => ?_) hparts (.refl _) (.refl _)
  exact (Topics.extend_comm _ a b).trans
    (Topics.extend_similar (Topics.extend_similar hst b) a)

end Script

namespace Playbook

theorem ranked_similar {s s' : Script} (h : Topics.Similar s.topics s'.topics)
    (settings : Settings) (depth : Nat) (name : Text) :
    (build settings depth s).ranked.find? name = (build settings depth s').ranked.find? name := by
  rw [find?_ranked, find?_ranked]
  have hn := h.topics name
  rw [Topics.pool, Topics.pool, Entry.ranked_perm (Topics.poolFrom_perm h _ _ _ _)]
  generalize s.topics.find? name = t at hn
  generalize s'.topics.find? name = t' at hn
  cases hn <;> rfl

theorem keys_ranked (settings : Settings) (depth : Nat) (s : Script) :
    (build settings depth s).ranked.keys = s.topics.keys := by
  simp [build, Table.keys, Function.comp_def]

theorem ofScript_similar {s s' : Script} (h : Topics.Similar s.topics s'.topics)
    {settings : Settings} {depth : Nat} {p : Playbook} (hp : ofScript settings depth s = .ok p) :
    ofScript settings depth s' = .ok (build settings depth s') := by
  by_cases hs : settings.strict = true
  · have hcheck := checkPatterns_similar h (checkPatterns_of_ofScript hs hp)
    exact ofScript_of_checkPatterns hcheck settings depth
  · exact ofScript_of_lenient (Bool.eq_false_iff.mpr hs) depth s'

/-- However the documents are ordered, the script is refused or has the same rankings. -/
theorem ranked_of_perm {docs docs' : List Document} (h : docs.Perm docs') (settings : Settings)
    (depth : Nat) :
    (∃ p q, ofScript settings depth (Script.gather docs) = .ok p ∧
      ofScript settings depth (Script.gather docs') = .ok q ∧ p.ranked.keys.Perm q.ranked.keys ∧
        ∀ name, p.ranked.find? name = q.ranked.find? name) ∨
    ∃ fault fault', ofScript settings depth (Script.gather docs) = .error fault ∧
      ofScript settings depth (Script.gather docs') = .error fault' := by
  have hsimilar := Script.gather_similar h
  have hback := Script.gather_similar h.symm
  rcases hp : ofScript settings depth (Script.gather docs) with fault | p
  · rcases hq : ofScript settings depth (Script.gather docs') with fault' | q
    · exact Or.inr ⟨fault, fault', rfl, rfl⟩
    · rw [ofScript_similar hback hq] at hp
      cases hp
  · refine Or.inl ⟨p, _, rfl, ofScript_similar hsimilar hp, ?_, ?_⟩
    · rw [eq_build hp, keys_ranked, keys_ranked]
      exact hsimilar.keys
    · intro name
      rw [eq_build hp]
      exact ranked_similar hsimilar settings depth name

/-- Topics that refer to each other, in two documents that both hold rules of the first. -/
def asking : Document where
  topics := ⟨[("random", { rules := [{ pattern := "who are you" }], inherits := ["names"] })]⟩

def naming : Document where
  topics := ⟨[("names", { rules := [{ pattern := "*" }], includes := ["random"] }),
    ("random", { rules := [{ pattern := "where are you" }] })]⟩

theorem askingAndNaming_ranked :
    (Script.gather [asking, naming]).topics ≠ (Script.gather [naming, asking]).topics ∧
    (build {} 3 (Script.gather [asking, naming])).ranked.find? "names" =
      (build {} 3 (Script.gather [naming, asking])).ranked.find? "names" := by
  refine ⟨by decide, ?_⟩
  have hlenient : ({} : Settings).strict = false := rfl
  have hp := ofScript_of_lenient hlenient 3 (Script.gather [asking, naming])
  have hq := ofScript_of_lenient hlenient 3 (Script.gather [naming, asking])
  rcases ranked_of_perm (List.Perm.swap naming asking []) {} 3 with ⟨p, q, hp', hq', -, h⟩ | h
  · rw [hp, Except.ok.injEq] at hp'
    rw [hq, Except.ok.injEq] at hq'
    rw [hp', hq']
    exact h "names"
  · obtain ⟨fault, fault', hfault, -⟩ := h
    rw [hp] at hfault
    cases hfault

end Playbook

end Dialogue
