import Dialogue.Proofs.Live
import Dialogue.Proofs.Member
import Dialogue.Proofs.Tags
import Dialogue.Proofs.Unparked

/-! What variables are left with. Tags that are not known are parked while the others are carried out, and
come back in the text, but not in a variable that one of them was assigned to. -/
namespace Dialogue

open Text Answering Markup

/-! ### One assignment after the other -/

/-- What a variable is assigned last. -/
def lastValue? (xs : List Assignment) (holder : Holder) (name : Text) : Option Text :=
  (xs.reverse.find? fun x => x.holder = holder ∧ x.name = name).map Assignment.value

theorem lastValue?_concat (xs : List Assignment) (x : Assignment) (holder : Holder) (name : Text) :
    lastValue? (xs ++ [x]) holder name =
      if holder = x.holder ∧ name = x.name then some x.value else lastValue? xs holder name := by
  rw [lastValue?, List.reverse_append, List.reverse_singleton, List.singleton_append, List.find?_cons]
  by_cases h : holder = x.holder ∧ name = x.name
  · rw [if_pos h]
    simp [h]
  · have hother : ¬ (x.holder = holder ∧ x.name = name) := fun heq => h ⟨heq.1.symm, heq.2.symm⟩
    simp only [hother, decide_false, if_neg h]
    rfl

theorem mem_of_lastValue? {xs : List Assignment} {holder : Holder} {name value : Text}
    (h : lastValue? xs holder name = some value) :
    ∃ x ∈ xs, x.holder = holder ∧ x.name = name ∧ x.value = value := by
  obtain ⟨x, hfind, rfl⟩ := Option.map_eq_some_iff.mp h
  have hsame := List.find?_some hfind
  simp only [decide_eq_true_eq] at hsame
  exact ⟨x, List.mem_reverse.mp (List.mem_of_find?_eq_some hfind), hsame.1, hsame.2, rfl⟩

namespace Bot

variable {b : Bot} {P : Text → Text → Prop}

theorem value?_foldl_assign (xs : List Assignment) (holder : Holder) (name : Text) :
    (xs.foldl assign b).value? holder name = (lastValue? xs holder name).or (b.value? holder name) := by
  induction xs using List.reverseRecOn with
  | nil => rfl
  | append_singleton xs x ih =>
    rw [List.foldl_append, List.foldl_cons, List.foldl_nil, value?_assign, lastValue?_concat, ih]
    split <;> rfl

theorem settings_foldl_assign (xs : List Assignment) : (xs.foldl assign b).settings = b.settings := by
  induction xs generalizing b with
  | nil => rfl
  | cons x xs ih => rw [List.foldl_cons, ih, settings_assign]

/-- Only the last assignment to a variable counts. -/
theorem holds_foldl_assign (h : b.Holds P) (htopic : P "topic" Topic.default) (xs : List Assignment) :
    (xs.foldl assign b).Holds P ↔
      ∀ x ∈ xs, lastValue? xs x.holder x.name = some x.value → P x.name x.value := by
  rw [holds_iff htopic] at h ⊢
  constructor
  · intro hall x _ hlast
    refine hall x.holder x.name x.value ?_
    rw [value?_foldl_assign, hlast]
    rfl
  · intro hlast holder name value hvalue
    rw [value?_foldl_assign] at hvalue
    cases hassigned : lastValue? xs holder name with
    | none =>
      rw [hassigned] at hvalue
      exact h holder name value hvalue
    | some assigned =>
      rw [hassigned] at hvalue
      cases hvalue
      obtain ⟨x, hx, rfl, rfl, rfl⟩ := mem_of_lastValue? hassigned
      exact hlast x hx hassigned

end Bot

/-! ### Variables without parked tags -/

/-- What a table holds after definitions is one of them, or was there. -/
theorem Table.of_find?_defineAll {defs : List (Text × Text)} {t : Table Text} {name value : Text}
    (h : (t.defineAll defs).find? name = some value) : t.find? name = some value ∨ (name, value) ∈ defs := by
  induction defs generalizing t with
  | nil => exact .inl h
  | cons d defs ih =>
    rcases ih h with h | h
    · have h : (t.define d.1 d.2).find? name = some value := h
      rw [Table.define] at h
      split at h
      · exact .inl (Table.find?_of_erase h)
      · rcases Table.find?_of_set h with ⟨rfl, rfl⟩ | h
        · exact .inr List.mem_cons_self
        · exact .inl h
    · exact .inr (List.mem_cons_of_mem d h)

/-- No name and no value of a variable, and no text of a setback, looks as if a tag were parked in it. -/
structure Bot.Unparked (b : Bot) : Prop where
  values : b.Holds fun name value => Markup.Unparked name ∧ Markup.Unparked value
  setbacks : ∀ kind, Markup.Unparked (b.settings.wording.text kind)

namespace Bot.Unparked

variable {b c : Bot}

theorem congr (h : b.Unparked) (hc : c.SameLive b) : c.Unparked where
  values := ⟨hc.vars ▸ h.values.vars, hc.globals ▸ h.values.globals, hc.roster ▸ h.values.users⟩
  setbacks := hc.settings ▸ h.setbacks

theorem setVar (h : b.Unparked) (user : Text) {name value : Text} (hname : Markup.Unparked name)
    (hvalue : Markup.Unparked value) : (b.onRoster (·.setVar user name (some value))).Unparked :=
  ⟨(holds_assign h.values (by decide) ⟨.user user, name, value⟩).mpr ⟨hname, hvalue⟩, h.setbacks⟩

theorem hotLoad (h : b.Unparked) {code : Text} (hcode : Markup.Unparked code) :
    (b.hotLoad code).2.Unparked := by
  refine congr ?_ (b.sameLive_hotLoad code)
  rw [stream, load]
  cases hdoc : Document.ofText b.settings "stream()" code with
  | error fault => exact h
  | ok doc =>
    have hmark : Markup.Unparked lineMark := by decide
    have hdefines := Document.consists_ofText hmark hcode hdoc
    refine ⟨⟨fun name value hvalue => ?_, fun name value hvalue => ?_, h.values.users⟩, h.setbacks⟩
    · rcases Table.of_find?_defineAll hvalue with hvalue | hmem
      · exact h.values.vars name value hvalue
      · exact hdefines.vars _ hmem
    · rcases Table.of_find?_defineAll hvalue with hvalue | hmem
      · exact h.values.globals name value hvalue
      · exact hdefines.globals _ hmem

end Bot.Unparked

/-! ### Answers that park nothing -/

namespace Answering

/-- Comes to no fault. -/
def Succeeds (x : Answering Text) : Prop := ∀ p, ∃ t q, x.run.run p = (.ok t, q)

/-- Neither what is said nor the variables look as if a tag were parked in them, if the variables did not
before. -/
def KeepsUnparked (x : Answering Text) : Prop :=
  ∀ ⦃p result q⦄, p.bot.Unparked → x.run.run p = (result, q) →
    q.bot.Unparked ∧ ∀ t, result = .ok t → Markup.Unparked t

variable {x : Answering Text} {f : Text → Answering Text} {t : Text}

theorem succeeds_pure (t : Text) : Succeeds (pure t) := fun p => ⟨t, p, rfl⟩

theorem succeeds_bind (hx : Succeeds x) (hf : ∀ t, Succeeds (f t)) : Succeeds (x >>= f) := by
  intro p
  obtain ⟨t, q, hrun⟩ := hx p
  rw [run_bind, hrun]
  exact hf t q

theorem keeps_pure (ht : Markup.Unparked t) : KeepsUnparked (pure t) := by
  rintro p _ _ hp ⟨⟩
  exact ⟨hp, fun _ h => Except.ok.inj h ▸ ht⟩

theorem keeps_bind (hx : KeepsUnparked x) (hf : ∀ t, Markup.Unparked t → KeepsUnparked (f t)) :
    KeepsUnparked (x >>= f) := by
  intro p result q hp hrun
  rw [run_bind] at hrun
  rcases hx' : x.run.run p with ⟨found, r⟩
  obtain ⟨hr, hfound⟩ := hx hp hx'
  rw [hx'] at hrun
  cases found with
  | error fault =>
    cases hrun
    exact ⟨hr, fun _ h => nomatch h⟩
  | ok t => exact hf t (hfound t rfl) hr hrun

theorem keeps_setback (kind : Setback) : KeepsUnparked (setback kind) := by
  intro p result q hp hrun
  rw [run_setback] at hrun
  cases hrun
  refine ⟨hp, fun t ht => ?_⟩
  rw [setbackResult] at ht
  split at ht
  · cases ht
  · cases ht
    exact hp.setbacks kind

end Answering

namespace Expansion

section Parts

variable {read : Reader Text} {f : Text → Answering Text} {t : Text}

theorem succeeds_editEach (hf : ∀ found, Succeeds (f found)) (limit : Nat) (t : Text) :
    Succeeds (editEach read f limit t) := by
  induction limit generalizing t with
  | zero => exact succeeds_pure t
  | succ limit ih =>
    rw [editEach]
    split
    · exact succeeds_pure t
    · exact succeeds_bind (hf _) fun new => ih _

theorem keeps_editEach (hread : Copies read) (hf : ∀ found, Unparked found → KeepsUnparked (f found))
    (limit : Nat) (ht : Unparked t) : KeepsUnparked (editEach read f limit t) := by
  induction limit generalizing t with
  | zero => exact keeps_pure ht
  | succ limit ih =>
    rw [editEach]
    split
    · exact keeps_pure ht
    · rename_i before found rest hfind
      obtain ⟨hbefore, hfound, hrest⟩ := subset_of_find? hread hfind
      refine keeps_bind (hf found (ht.mono hfound)) fun new hnew => ih ?_
      rw [unparked_append, unparked_append]
      exact ⟨⟨ht.mono hbefore, hnew⟩, ht.mono hrest⟩

theorem keeps_pick (ht : Unparked t) : KeepsUnparked (pick t) := by
  intro p result q hp hrun
  obtain ⟨n, hn, -, hpick⟩ := run_pick t p
  rw [hpick] at hrun
  cases hrun
  exact ⟨hp, fun _ h => Except.ok.inj h ▸ unparked_options ht _ (List.getElem_mem hn)⟩

theorem keeps_hotLoad (ht : Unparked t) : KeepsUnparked (hotLoad t) := by
  rintro p _ _ hp ⟨⟩
  exact ⟨hp.hotLoad ht, fun _ h => Except.ok.inj h ▸ List.forall_mem_nil _⟩

theorem keeps_enterTopic {user : Text} (ht : Unparked t) : KeepsUnparked (enterTopic user t) := by
  rintro p _ _ hp ⟨⟩
  exact ⟨hp.setVar user (by decide) (ht.mono (trim_subset t)),
    fun _ h => Except.ok.inj h ▸ List.forall_mem_nil _⟩

theorem succeeds_formatBlocks (person : Substitution) (limit : Nat) (blocks : List Block) (t : Text) :
    Succeeds (formatBlocks person limit blocks t) := by
  induction blocks generalizing t with
  | nil => exact succeeds_pure t
  | cons block blocks ih => exact succeeds_bind (succeeds_editEach (fun _ => succeeds_pure _) limit t) ih

theorem keeps_formatBlocks {table : Table Text} {takes : Text → Bool}
    (htable : ∀ e ∈ table.entries, Unparked e.2) (limit : Nat) (blocks : List Block) (ht : Unparked t) :
    KeepsUnparked (formatBlocks ((Substitution.ofTable table).keep takes) limit blocks t) := by
  induction blocks generalizing t with
  | nil => exact keeps_pure ht
  | cons block blocks ih =>
    refine keeps_bind (keeps_editEach (copies_readBetween _ _ _) (fun body hbody => ?_) limit ht) fun t => ih
    exact keeps_pure (unparked_format htable block hbody)

end Parts

/-! ### Carrying out tags -/

/-- What is assigned, one after the other, where tags are replaced as long as there are any. -/
def assignments (user : Text) : (limit : Nat) → Text → Process → List Assignment
  | 0, _, _ => []
  | limit + 1, t, p =>
    match find? readTag t with
    | none => []
    | some (before, body, rest) =>
      let (result, q) := (Variable.tag user park body).run.run p
      (Variable.assigned? user p.bot body).toList ++
        assignments user limit (before ++ result.toOption.getD [] ++ rest) q

theorem run_editEach_tag (user : Text) (limit : Nat) (t : Text) (p : Process) :
    ∃ said, (editEach readTag (Variable.tag user park) limit t).run.run p =
      (.ok said, { p with bot := (assignments user limit t p).foldl Bot.assign p.bot }) := by
  induction limit generalizing t p with
  | zero => exact ⟨t, rfl⟩
  | succ limit ih =>
    rw [assignments]
    cases hfind : find? readTag t with
    | none =>
      rw [editEach_of_none hfind]
      exact ⟨t, rfl⟩
    | some found =>
      obtain ⟨before, body, rest⟩ := found
      obtain ⟨new, hrun, -⟩ := Variable.run_tag user park body p
      obtain ⟨said, hsaid⟩ := ih (before ++ new ++ rest)
        { p with bot := Variable.afterTag user p.bot body }
      refine ⟨said, ?_⟩
      rw [run_editEach hfind hrun, hsaid]
      dsimp only
      rw [hrun]
      have hafter : Variable.afterTag user p.bot body =
          (Variable.assigned? user p.bot body).toList.foldl Bot.assign p.bot := by
        rw [Variable.afterTag]
        cases Variable.assigned? user p.bot body <;> rfl
      rw [List.foldl_append, ← hafter]
      rfl

/-- Everything is back in the text, and variables are as they were assigned. -/
theorem run_carryOutTags (user t : Text) (p : Process) :
    ∃ said, Unparked said ∧ (carryOutTags user t).run.run p =
      (.ok said, { p with bot := (assignments user tagLimit (hideCalls t) p).foldl Bot.assign p.bot }) := by
  obtain ⟨said, hrun⟩ := run_editEach_tag user tagLimit (hideCalls t) p
  refine ⟨unpark said, unparked_unpark said, ?_⟩
  rw [carryOutTags, run_bind, hrun]
  rfl

/-- In what each variable is assigned last, no tag is parked. -/
def LastUnparked (xs : List Assignment) : Prop :=
  ∀ x ∈ xs, lastValue? xs x.holder x.name = some x.value → Unparked x.name ∧ Unparked x.value

instance (xs : List Assignment) : Decidable (LastUnparked xs) :=
  List.decidableBAll (fun x : Assignment => lastValue? xs x.holder x.name = some x.value →
    Unparked x.name ∧ Unparked x.value) xs

theorem unparked_carryOutTags_iff (user t : Text) {p : Process} (hp : p.bot.Unparked) :
    ((carryOutTags user t).run.run p).2.bot.Unparked ↔
      LastUnparked (assignments user tagLimit (hideCalls t) p) := by
  obtain ⟨said, -, hrun⟩ := run_carryOutTags user t p
  rw [hrun]
  have hvalues := Bot.holds_foldl_assign hp.values ⟨by decide, by decide⟩
    (assignments user tagLimit (hideCalls t) p)
  refine ⟨fun h => hvalues.mp h.values, fun h => ⟨hvalues.mpr h, ?_⟩⟩
  dsimp only
  rw [Bot.settings_foldl_assign]
  exact hp.setbacks

/-! ### Before and after -/

/-- What is carried out of a text before its tags. -/
def beforeTags (a : Asking) (turn : Turn) (t : Text) : Answering Text := do
  let history := (← bot).roster.history a.user
  let t := Markup.prepare a.playbook.arrays turn.stars turn.botStars history a.user t
  let t ← editEach (readBlock "random" 0) pick a.playbook.depth t
  let t ← editEach readHotLoad hotLoad a.playbook.depth t
  formatBlocks a.playbook.person a.playbook.depth Block.all t

/-- What is carried out after the tags. -/
def afterTags (a : Asking) (call : Answerer) (turn : Turn) (t : Text) : Answering Text := do
  let t ← editEach readTopic (enterTopic a.user) a.playbook.depth t
  let t ← editEach readRedirect (redirect call turn) a.playbook.depth t
  editEach readCall (callObject a.user) a.playbook.depth (showCalls t)

variable {a : Asking} {call : Answerer} {turn : Turn} {t : Text} {p : Process}

theorem expand_eq (a : Asking) (call : Answerer) (turn : Turn) (t : Text) : expand a call turn t =
    beforeTags a turn t >>= fun t => carryOutTags a.user t >>= afterTags a call turn := by
  rw [expand, beforeTags]
  simp only [bind_assoc]
  rfl

theorem succeeds_beforeTags (a : Asking) (turn : Turn) (t : Text) : Succeeds (beforeTags a turn t) := by
  intro p
  rw [beforeTags, run_bot]
  have hpick : ∀ body, Succeeds (pick body) := fun body p =>
    let ⟨_, _, _, hrun⟩ := run_pick body p
    ⟨_, _, hrun⟩
  refine succeeds_bind (succeeds_editEach hpick _ _) (fun t => ?_) p
  refine succeeds_bind (succeeds_editEach (fun code p => ⟨_, _, rfl⟩) _ t) fun t => ?_
  exact succeeds_formatBlocks _ _ _ t

theorem unparked_beforeTags
    (hsupplies : Supplies a.playbook.arrays turn.stars turn.botStars (p.bot.roster.history a.user) a.user)
    {table : Table Text} {takes : Text → Bool}
    (hperson : a.playbook.person = (Substitution.ofTable table).keep takes)
    (htable : ∀ e ∈ table.entries, Unparked e.2) (ht : Unparked t) (hp : p.bot.Unparked) {u : Text}
    {q : Process} (hrun : (beforeTags a turn t).run.run p = (.ok u, q)) : Unparked u ∧ q.bot.Unparked := by
  rw [beforeTags, run_bot, hperson] at hrun
  have hblocks : ∀ t, Unparked t →
      KeepsUnparked (formatBlocks ((Substitution.ofTable table).keep takes) a.playbook.depth
        Block.all t) :=
    fun t => keeps_formatBlocks htable _ _
  have hloads : ∀ t, Unparked t → KeepsUnparked (editEach readHotLoad hotLoad a.playbook.depth t) :=
    fun t => keeps_editEach (copies_readBetween _ _ _) (fun _ => keeps_hotLoad) _
  have hchoices : ∀ t, Unparked t → KeepsUnparked (editEach (readBlock "random" 0) pick a.playbook.depth t) :=
    fun t => keeps_editEach (copies_readBetween _ _ _) (fun _ => keeps_pick) _
  have hkeeps := keeps_bind (hchoices _ (hsupplies.prepare ht)) fun t ht => keeps_bind (hloads t ht) hblocks
  obtain ⟨hq, hu⟩ := hkeeps hp hrun
  exact ⟨hu u rfl, hq⟩

/-- Objects are called, and change no variable. -/
theorem run_callObjects (user : Text) (limit : Nat) (t : Text) (p : Process) :
    ∃ said, (editEach readCall (callObject user) limit t).run.run p = (.ok said, p) := by
  induction limit generalizing t with
  | zero => exact ⟨t, rfl⟩
  | succ limit ih =>
    cases hfind : find? readCall t with
    | none =>
      rw [editEach_of_none hfind]
      exact ⟨t, rfl⟩
    | some found =>
      obtain ⟨new, hnew⟩ : ∃ new, (callObject user found.2.1).run.run p = (.ok new, p) := ⟨_, rfl⟩
      rw [run_editEach hfind hnew]
      exact ih (found.1 ++ new ++ found.2.2)

theorem unparked_afterTags
    (hcall : ∀ depth message, Unparked message → KeepsUnparked (call depth false message))
    (ht : Unparked t) (hp : p.bot.Unparked) : ((afterTags a call turn t).run.run p).2.bot.Unparked := by
  have htopics : KeepsUnparked (editEach readTopic (enterTopic a.user) a.playbook.depth t) :=
    keeps_editEach (copies_readBetweenOnLine _ _ _) (fun _ => keeps_enterTopic) _ ht
  have hredirects : ∀ t, Unparked t →
      KeepsUnparked (editEach readRedirect (redirect call turn) a.playbook.depth t) := fun t ht =>
    keeps_editEach (copies_readBetween _ _ _)
      (fun target htarget => hcall _ _ (htarget.mono (trim_subset target)).lower) _ ht
  have hkeeps := keeps_bind htopics hredirects
  rw [afterTags, ← bind_assoc, run_bind]
  rcases hrun : ((editEach readTopic (enterTopic a.user) a.playbook.depth t) >>= fun t =>
    editEach readRedirect (redirect call turn) a.playbook.depth t).run.run p with ⟨result, q⟩
  have hq := (hkeeps hp hrun).1
  cases result with
  | error fault => exact hq
  | ok said =>
    obtain ⟨_, hcalls⟩ := run_callObjects a.user a.playbook.depth (showCalls said) q
    dsimp only
    rw [hcalls]
    exact hq

/-- Up to the tags, and after them, no variable comes to look as if a tag were parked in it. Carrying out
the tags leaves one so exactly if, for some variable, there is a tag that is not known in what it is
assigned last. -/
theorem expand_unparked
    (hsupplies : Supplies a.playbook.arrays turn.stars turn.botStars (p.bot.roster.history a.user) a.user)
    {table : Table Text} {takes : Text → Bool}
    (hperson : a.playbook.person = (Substitution.ofTable table).keep takes)
    (htable : ∀ e ∈ table.entries, Unparked e.2)
    (hcall : ∀ depth message, Unparked message → KeepsUnparked (call depth false message))
    (ht : Unparked t) (hp : p.bot.Unparked) :
    ∃ u q, (beforeTags a turn t).run.run p = (.ok u, q) ∧ Unparked u ∧ q.bot.Unparked ∧
      (((carryOutTags a.user u).run.run q).2.bot.Unparked ↔
        LastUnparked (assignments a.user tagLimit (hideCalls u) q)) ∧
      (LastUnparked (assignments a.user tagLimit (hideCalls u) q) →
        ((expand a call turn t).run.run p).2.bot.Unparked) := by
  obtain ⟨u, q, hrun⟩ := succeeds_beforeTags a turn t p
  obtain ⟨hu, hq⟩ := unparked_beforeTags hsupplies hperson htable ht hp hrun
  have hiff := unparked_carryOutTags_iff a.user u hq
  refine ⟨u, q, hrun, hu, hq, hiff, fun hlast => ?_⟩
  obtain ⟨said, hsaid, htags⟩ := run_carryOutTags a.user u q
  have hafter := hiff.mpr hlast
  rw [htags] at hafter
  rw [expand_eq, run_bind, hrun]
  dsimp only
  rw [run_bind, htags]
  exact unparked_afterTags hcall hsaid hafter

/-- Somebody for whom there are no rules, so that redirects come to nothing. -/
def stranger : Asking := ⟨"user", { person := (Substitution.ofTable {}).keep fun _ => true }⟩

def unmatched : Answerer := fun _ _ _ => setback .notMatched

theorem supplies_stranger : Supplies stranger.playbook.arrays ({} : Turn).stars ({} : Turn).botStars
    (({} : Bot).roster.history stranger.user) stranger.user where
  arrays _ _ h := nomatch h
  stars := by decide
  botStars := by decide
  inputs := by decide
  replies := by decide
  user := by decide

theorem unparked_new : ({} : Bot).Unparked where
  values := ⟨fun _ _ h => (nomatch h), fun _ _ h => (nomatch h), fun _ _ _ h => (nomatch h)⟩
  setbacks kind := by cases kind <;> decide

def correction : Text := "<bot mood=<em>sad><bot mood=glad>Okay."

/-- The second value takes the place of one in which a tag was parked. -/
theorem correction_unparked :
    Supplies stranger.playbook.arrays ({} : Turn).stars ({} : Turn).botStars
      (({} : Bot).roster.history stranger.user) stranger.user ∧
    stranger.playbook.person = ((Substitution.ofTable {}).keep fun _ => true) ∧ (∀ e ∈ ({} : Table Text).entries, Unparked e.2) ∧
    (∀ depth message, Unparked message → KeepsUnparked (unmatched depth false message)) ∧
    Unparked correction ∧ ({} : Bot).Unparked ∧
    ((expand stranger unmatched {} correction).run.run { bot := {} }).2.bot.Unparked ∧
    ((expand stranger unmatched {} correction).run.run { bot := {} }).2.bot.vars.find? "mood" =
      some ("glad" : Text) := by
  have hcall : ∀ depth message, Unparked message → KeepsUnparked (unmatched depth false message) :=
    fun _ _ _ => keeps_setback _
  have hperson : stranger.playbook.person = (Substitution.ofTable {}).keep fun _ => true := rfl
  have htable : ∀ e ∈ ({} : Table Text).entries, Unparked e.2 := List.forall_mem_nil _
  have hcorrection : Unparked correction := by decide
  obtain ⟨u, q, hrun, -, -, -, hlast⟩ :=
    expand_unparked (p := { bot := {} }) supplies_stranger hperson htable hcall hcorrection unparked_new
  have hsaid : ((beforeTags stranger {} correction).run.run { bot := {} }).1.toOption = some correction := by
    decide +kernel
  have hassigned : LastUnparked (assignments "user" tagLimit (hideCalls correction)
      ((beforeTags stranger {} correction).run.run { bot := {} }).2) := by decide +kernel
  rw [hrun] at hsaid hassigned
  rw [← Option.some.inj hsaid] at hassigned
  exact ⟨supplies_stranger, hperson, htable, hcall, hcorrection, unparked_new, hlast hassigned,
    by decide +kernel⟩

def emphasis : Text := "<set x=<em>a>Okay."

/-- Nothing takes the place of a value in which a tag was parked: its signs stay, although there is none in
the text, in the bot and in what is known of the user. -/
theorem emphasis_parked :
    Supplies stranger.playbook.arrays ({} : Turn).stars ({} : Turn).botStars
      (({} : Bot).roster.history stranger.user) stranger.user ∧
    stranger.playbook.person = ((Substitution.ofTable {}).keep fun _ => true) ∧ (∀ e ∈ ({} : Table Text).entries, Unparked e.2) ∧
    Unparked emphasis ∧ ({} : Bot).Unparked ∧
    ((expand stranger unmatched {} emphasis).run.run { bot := {} }).2.bot.roster.var? "user" "x" =
      some ("\x00em\x01a" : Text) ∧
    ¬ ((expand stranger unmatched {} emphasis).run.run { bot := {} }).2.bot.Unparked := by
  have hvalue : ((expand stranger unmatched {} emphasis).run.run { bot := {} }).2.bot.roster.var?
      "user" "x" = some ("\x00em\x01a" : Text) := by decide +kernel
  refine ⟨supplies_stranger, rfl, List.forall_mem_nil _, by decide, unparked_new, hvalue, fun h => ?_⟩
  exact absurd (h.values.users _ _ _ hvalue).2 (by decide)

end Expansion

end Dialogue
