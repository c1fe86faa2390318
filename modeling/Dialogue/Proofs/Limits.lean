import Dialogue.Proofs.Choice
import Dialogue.Proofs.Pairs
import Dialogue.Proofs.Table

/-! Two limits. Replies are the same with both of them as long as nothing comes to the lower one, neither
the loops that carry out markup nor redirects. Topics that neither include nor inherit others are not
affected by limits at all. -/
namespace Dialogue

open Text Answering

/-! ### Topics that stand apart -/

namespace Topics

/-- No topic includes or inherits another one. -/
def Apart (topics : Topics) : Prop :=
  ∀ name topic, topics.find? name = some topic → topic.includes = [] ∧ topic.inherits = []

variable {topics : Topics}

theorem apart_of_entries
    (h : ∀ e ∈ Table.entries topics, e.2.includes = [] ∧ e.2.inherits = []) : topics.Apart :=
  fun name topic hfind => h (name, topic) (Table.mem_entries_of_find? hfind)

theorem Apart.poolFrom (h : topics.Apart) (steps : Nat) (name : Text) (level : Nat) (marked : Bool) :
    poolFrom topics (steps + 1) name level marked = poolFrom topics 1 name level marked := by
  rw [Topics.poolFrom, Topics.poolFrom]
  cases hfind : topics.find? name with
  | none => rfl
  | some topic =>
    obtain ⟨hincludes, hinherits⟩ := h name topic hfind
    simp [hincludes, hinherits]

theorem Apart.tree (h : topics.Apart) (limit limit' : Nat) (name : Text) :
    topics.tree limit name = topics.tree limit' name := by
  rw [Topics.tree, Topics.tree, treeFrom, treeFrom]
  cases hfind : topics.find? name with
  | none => rfl
  | some topic =>
    obtain ⟨hincludes, hinherits⟩ := h name topic hfind
    simp [hincludes, hinherits]

theorem Apart.owner? (h : topics.Apart) (limit limit' : Nat) (name pattern : Text) :
    topics.owner? limit name pattern = topics.owner? limit' name pattern := by
  rw [Topics.owner?, Topics.owner?, relatedOwner?, relatedOwner?]
  cases hfind : topics.find? name with
  | none => rfl
  | some topic =>
    obtain ⟨hincludes, hinherits⟩ := h name topic hfind
    simp [hincludes, hinherits]

end Topics

namespace Asking

/-- The same with another limit. -/
def within (a : Asking) (limit : Nat) : Asking :=
  { a with playbook := { a.playbook with depth := limit } }

end Asking

namespace Playbook

/-- Where topics stand apart, nothing else depends on the limit. -/
theorem build_within {s : Script} (h : s.topics.Apart) {settings settings' : Settings}
    (hutf8 : settings.utf8 = settings'.utf8) (hpunctuation : settings.punctuation = settings'.punctuation)
    (hengine : settings.engine = settings'.engine) (limit limit' : Nat) :
    build settings' limit' s = { build settings limit s with depth := limit' } := by
  have hpool : ∀ name, s.topics.pool limit' name = s.topics.pool limit name := by
    intro name
    rw [Topics.pool, Topics.pool, h.poolFrom limit', h.poolFrom limit]
  simp only [build, hpool, hutf8, hpunctuation, hengine]

end Playbook

namespace Selection

variable {p : Playbook} {topic message : Text}

theorem matchTrigger_within (h : p.topics.Apart) (limit : Nat) (b : Bot) (user : Text) :
    matchTrigger b { p with depth := limit } user topic message =
      matchTrigger b p user topic message := by
  rw [matchTrigger, matchTrigger]
  refine firstTrigger_congr (fun pattern => ?_) (fun pattern owner _ => ?_) 0 _
  · exact h.owner? limit p.depth topic pattern
  · rfl

theorem matchPrevious_within (h : p.topics.Apart) (limit : Nat) (b : Bot) (user : Text) :
    matchPrevious b { p with depth := limit } user topic message =
      matchPrevious b p user topic message := by
  have hlooks : ∀ names, Playbook.looksBack { p with depth := limit } names = p.looksBack names :=
    fun _ => rfl
  have hlookback : ∀ s strict lastReply tried lookbacks,
      firstLookback { p with depth := limit } s strict lastReply message tried lookbacks =
        firstLookback p s strict lastReply message tried lookbacks :=
    fun _ _ lastReply tried _ => firstLookback_congr lastReply tried fun _ _ => rfl
  rw [matchPrevious, matchPrevious]
  simp only [h.tree limit p.depth, hlookback, hlooks]
  rfl

end Selection

theorem Answer.findRule_within {a : Asking} (h : a.playbook.topics.Apart) (limit : Nat)
    (isFirst : Bool) (step : Nat) (topic message : Text) :
    findRule (a.within limit) isFirst step topic message = findRule a isFirst step topic message := by
  simp only [findRule, Asking.within, Selection.matchPrevious_within h, Selection.matchTrigger_within h]

/-! ### At the limit

What is done at the limit of a loop or of redirects is a parameter here. It tells replies that come to
their limit from those that do not, which the usual end of a loop does not show. -/

/-- What is done where the limit is hit: with a text in which something is left to replace, and with a
message that is not answered any more. -/
structure Halt where
  edit : Text → Answering Text
  answer : Text → Answering Text

namespace Halt

def usual : Halt where
  edit t := return t
  answer _ := setback .tooDeep

def fault (f : Fault) : Halt where
  edit _ := throw f
  answer _ := throw f

end Halt

variable {α β : Type} {halt : Halt} {a : Asking}

namespace Expansion

def editUntil (halt : Halt) (read : Reader α) (f : α → Answering Text) :
    (limit : Nat) → Text → Answering Text
  | 0, t => if (find? read t).isSome then halt.edit t else return t
  | limit + 1, t =>
    match find? read t with
    | none => return t
    | some (before, found, rest) => do
      let new ← f found
      editUntil halt read f limit (before ++ new ++ rest)

def formatUntil (halt : Halt) (person : Substitution) (limit : Nat) :
    List Markup.Block → Text → Answering Text
  | [], t => return t
  | block :: blocks, t => do
    let t ← editUntil halt (Markup.readBlock block.name 1)
      (fun body => return block.format person body) limit t
    formatUntil halt person limit blocks t

/-- Variables have a limit of their own, which is always the same. -/
def expandUntil (halt : Halt) (a : Asking) (call : Answerer) (turn : Turn) (t : Text) :
    Answering Text := do
  let limit := a.playbook.depth
  let history := (← bot).roster.history a.user
  let t := Markup.prepare a.playbook.arrays turn.stars turn.botStars history a.user t
  let t ← editUntil halt (Markup.readBlock "random" 0) pick limit t
  let t ← editUntil halt Markup.readHotLoad hotLoad limit t
  let t ← formatUntil halt a.playbook.person limit Markup.Block.all t
  let t ← carryOutTags a.user t
  let t ← editUntil halt Markup.readTopic (enterTopic a.user) limit t
  let t ← editUntil halt Markup.readRedirect (redirect call turn) limit t
  editUntil halt Markup.readCall (callObject a.user) limit (Markup.showCalls t)

end Expansion

namespace Answer

def respondUntil (halt : Halt) (a : Asking) (call : Answerer) : Answerer :=
  fun depth begin message =>
    if a.playbook.depth < depth then halt.answer message
    else do
      match ← currentTopic a begin with
      | none => setback .noDefaultTopic
      | some topic =>
        let step ← openStep { depth, topic, message, begin }
        match ← findRule a (depth == 0) step topic message with
        | none => setback .notMatched
        | some found =>
          let turn : Turn :=
            { depth, message, topic, stars := found.stars, botStars := found.botStars }
          let text ← speak (Expansion.expandUntil halt a call turn) (call (depth + 1) begin) found.rule
          if text = [] then setback .noReply
          else if begin then Expansion.expandBegin a.user text
          else Expansion.expandUntil halt a call turn text

def resolveUntil (halt : Halt) (a : Asking) : (levels : Nat) → Answerer
  | 0 => fun _ _ message => halt.answer message
  | levels + 1 => respondUntil halt a (resolveUntil halt a levels)

/-- Answers like `answer`, but does something of its own where the limit is hit. -/
def answerUntil (halt : Halt) (a : Asking) (message : Text) : Answering Text := do
  let call : Answerer := fun depth => resolveUntil halt a (a.playbook.depth + 2 - depth) depth
  if a.playbook.topics.has Topic.begin then
    let before ← call 0 true "request"
    let text ← (if has replyMark before then do
        let reply ← call 0 false message
        return replace replyMark reply before
      else pure before)
    Expansion.expandUntil halt a call {} text
  else call 0 false message

end Answer

namespace Expansion

variable {read : Reader α} {f : α → Answering Text} {t : Text}

theorem editUntil_of_none (h : find? read t = none) (limit : Nat) :
    editUntil halt read f limit t = pure t := by
  cases limit with
  | zero =>
    rw [editUntil, h]
    rfl
  | succ limit => rw [editUntil, h]

theorem editUntil_zero {found : Text × α × Text} (h : find? read t = some found) :
    editUntil halt read f 0 t = halt.edit t := by
  rw [editUntil, h]
  rfl

theorem editUntil_succ {found : Text × α × Text} (h : find? read t = some found) (limit : Nat) :
    editUntil halt read f (limit + 1) t =
      f found.2.1 >>= fun new => editUntil halt read f limit (found.1 ++ new ++ found.2.2) := by
  rw [editUntil, h]

end Expansion

/-! ### The usual way -/

namespace Expansion

theorem editUntil_usual (read : Reader α) (f : α → Answering Text) (limit : Nat) (t : Text) :
    editUntil .usual read f limit t = editEach read f limit t := by
  induction limit generalizing t with
  | zero =>
    rw [editUntil, editEach]
    split
    · rfl
    · rfl
  | succ limit ih =>
    cases hfind : find? read t with
    | none =>
      rw [editUntil_of_none hfind, editEach, hfind]
    | some found =>
      have hrest : (fun new => editUntil .usual read f limit (found.1 ++ new ++ found.2.2)) =
          fun new => editEach read f limit (found.1 ++ new ++ found.2.2) := funext fun new => ih _
      rw [editUntil_succ hfind, hrest, editEach, hfind]

theorem formatUntil_usual (person : Substitution) (limit : Nat) (blocks : List Markup.Block)
    (t : Text) : formatUntil .usual person limit blocks t = formatBlocks person limit blocks t := by
  induction blocks generalizing t with
  | nil => rfl
  | cons block blocks ih =>
    rw [formatUntil, formatBlocks, editUntil_usual]
    simp only [ih]

theorem expandUntil_usual (call : Answerer) (turn : Turn) (t : Text) :
    expandUntil .usual a call turn t = expand a call turn t := by
  simp only [expandUntil, expand, editUntil_usual, formatUntil_usual]

end Expansion

namespace Answer

theorem respondUntil_usual (call : Answerer) : respondUntil .usual a call = respond a call := by
  funext depth begin message
  have hexpand : ∀ turn, Expansion.expandUntil .usual a call turn = Expansion.expand a call turn :=
    fun turn => funext fun t => Expansion.expandUntil_usual call turn t
  rw [respondUntil, respond]
  simp only [hexpand]
  rfl

theorem resolveUntil_usual (levels : Nat) : resolveUntil .usual a levels = resolveFrom a levels := by
  induction levels with
  | zero => rfl
  | succ levels ih => rw [resolveUntil, resolveFrom, ih, respondUntil_usual]

/-- Answers are what they are because of what is usually done at the limit. -/
theorem answerUntil_usual (message : Text) : answerUntil .usual a message = answer a message := by
  simp only [answerUntil, answer, answerWith, resolveUntil_usual, Expansion.expandUntil_usual]
  rfl

end Answer

/-! ### Two runs -/

/-- Unless the first run comes to the fault, the second one has the same result, and they leave related
processes. Since faults are never taken back, a run that comes to another result has met none. -/
def Follows (R : Bot → Bot → Prop) (f : Fault) (x y : Answering α) : Prop := ∀ p q, p.Paired R q →
  (x.run.run p).1 ≠ .error f →
    (x.run.run p).1 = (y.run.run q).1 ∧ (x.run.run p).2.Paired R (y.run.run q).2

namespace Follows

variable {R : Bot → Bot → Prop} {f : Fault} {x y : Answering α} {g k : α → Answering β}

theorem of_pairs (h : Pairs R x) : Follows R f x x := fun p q hpq _ => h p q hpq

theorem pure (v : α) : Follows R f (pure v : Answering α) (Pure.pure v) := fun _ _ h _ => ⟨rfl, h⟩

theorem fault (y : Answering α) : Follows R f (throw f) y := fun _ _ _ h => absurd rfl h

theorem bind (h : Follows R f x y) (hg : ∀ v, Follows R f (g v) (k v)) :
    Follows R f (x >>= g) (y >>= k) := by
  intro p q hpq hfault
  rw [run_bind] at hfault
  rw [run_bind, run_bind]
  rcases hp : x.run.run p with ⟨result, p'⟩
  rcases hq : y.run.run q with ⟨result', q'⟩
  rw [hp] at hfault
  have hfirst := h p q hpq
  rw [hp, hq] at hfirst
  cases result with
  | error other =>
    have hother : Except.error other ≠ (.error f : Except Fault α) := fun h =>
      hfault (congrArg Except.error (Except.error.inj h))
    obtain ⟨hresult, hpaired⟩ := hfirst hother
    obtain rfl : Except.error other = result' := hresult
    exact ⟨rfl, hpaired⟩
  | ok v =>
    obtain ⟨hresult, hpaired⟩ := hfirst fun h => nomatch h
    obtain rfl : Except.ok v = result' := hresult
    exact hg v p' q' hpaired hfault

theorem rules (R : Bot → Bot → Prop) (f : Fault) : PairRules fun x y => Follows R f x y where
  pure := .pure
  bind := .bind
  draw chances := .of_pairs (pairs_draw chances)

theorem look {g k : Bot → Answering β} (h : ∀ b c, R b c → Follows R f (g b) (k c)) :
    Follows R f (bot >>= g) (bot >>= k) := by
  intro p q hpq hfault
  exact h p.bot q.bot hpq.bot p q hpq hfault

/-- A loop that stops with nothing left to replace does the same with a higher limit. -/
theorem editUntil (read : Reader α) {g k : α → Answering Text} (h : ∀ v, Follows R f (g v) (k v))
    {limit limit' : Nat} (hle : limit ≤ limit') (t : Text) :
    Follows R f (Expansion.editUntil (.fault f) read g limit t)
      (Expansion.editUntil halt read k limit' t) := by
  induction limit generalizing limit' t with
  | zero =>
    cases hfind : find? read t with
    | none =>
      rw [Expansion.editUntil_of_none hfind, Expansion.editUntil_of_none hfind]
      exact .pure t
    | some found =>
      rw [Expansion.editUntil_zero hfind]
      exact .fault _
  | succ limit ih =>
    cases hfind : find? read t with
    | none =>
      rw [Expansion.editUntil_of_none hfind, Expansion.editUntil_of_none hfind]
      exact .pure t
    | some found =>
      cases limit' with
      | zero => omega
      | succ limit' =>
        have hle := Nat.le_of_succ_le_succ hle
        rw [Expansion.editUntil_succ hfind, Expansion.editUntil_succ hfind]
        exact (h _).bind fun new => ih hle _

theorem formatUntil (person : Substitution) {limit limit' : Nat} (hle : limit ≤ limit')
    (blocks : List Markup.Block) (t : Text) :
    Follows R f (Expansion.formatUntil (.fault f) person limit blocks t)
      (Expansion.formatUntil halt person limit' blocks t) := by
  induction blocks generalizing t with
  | nil => exact .pure t
  | cons block blocks ih => exact (editUntil _ (fun body => .pure _) hle t).bind ih

variable {limit : Nat} {call call' : Answerer} {turn : Turn}

theorem expandUntil (hR : Bot.Unseen a.user R) (hle : a.playbook.depth ≤ limit)
    (hcall : ∀ message, Follows R f (call (turn.depth + 1) false message)
      (call' (turn.depth + 1) false message)) (t : Text) :
    Follows R f (Expansion.expandUntil (.fault f) a call turn t)
      (Expansion.expandUntil halt (a.within limit) call' turn t) := by
  have hmarkup := (rules_pairs hR).markup 0 0
  unfold Expansion.expandUntil
  refine look fun b c hbc => ?_
  have hhistory : b.roster.history a.user = c.roster.history a.user :=
    (hR.alike hbc a.playbook).history
  rw [hhistory]
  refine (editUntil _ (fun body => of_pairs (hmarkup.pick body)) hle _).bind fun t => ?_
  refine (editUntil _ (fun code => of_pairs (hmarkup.hotLoad code)) hle _).bind fun t => ?_
  refine (formatUntil _ hle _ _).bind fun t => ?_
  refine (of_pairs (hmarkup.carryOutTags t)).bind fun t => ?_
  refine (editUntil _ (fun name => of_pairs (hmarkup.enterTopic name)) hle _).bind fun t => ?_
  refine (editUntil _ (fun target => hcall _) hle _).bind fun t => ?_
  exact editUntil _ (fun body => of_pairs (hmarkup.callObject body)) hle _

theorem respondUntil (hR : Bot.Unseen a.user R) (hapart : a.playbook.topics.Apart)
    (hle : a.playbook.depth ≤ limit) {depth : Nat}
    (hcall : ∀ begin message, Follows R f (call (depth + 1) begin message)
      (call' (depth + 1) begin message)) (begin : Bool) (message : Text) :
    Follows R f (Answer.respondUntil (.fault f) a call depth begin message)
      (Answer.respondUntil halt (a.within limit) call' depth begin message) := by
  have hrules : Rules a (fun _ => True) fun _ _ _ x => Pairs R x := rules_pairs hR
  have hmarkup := hrules.markup 0 0
  unfold Answer.respondUntil
  by_cases hdeep : a.playbook.depth < depth
  · rw [if_pos hdeep]
    exact .fault _
  · have hwithin : ¬ (a.within limit).playbook.depth < depth := by
      intro hlt
      have hlimit : limit < depth := hlt
      omega
    rw [if_neg hdeep, if_neg hwithin]
    refine (of_pairs (hmarkup.currentTopic begin)).bind fun topic => ?_
    cases topic with
    | none => exact of_pairs (hmarkup.setback _)
    | some topic =>
      refine (of_pairs (pairs_openStep _)).bind fun step => ?_
      rw [Answer.findRule_within hapart]
      have hfind : Pairs R (Answer.findRule a (depth == 0) step topic message) :=
        hrules.findRule (d := 0) _ _ _
      refine (of_pairs hfind).bind fun found => ?_
      cases found with
      | none => exact of_pairs (hmarkup.setback _)
      | some found =>
        have hexpand : ∀ turn : Turn, turn.depth = depth → ∀ t, Follows R f
            (Expansion.expandUntil (.fault f) a call turn t)
            (Expansion.expandUntil halt (a.within limit) call' turn t) := by
          rintro turn rfl t
          exact expandUntil hR hle (hcall false) t
        refine ((rules R f).speak (hexpand _ rfl) (hcall begin) found.rule).bind fun text => ?_
        split
        · exact of_pairs (hmarkup.setback _)
        · split
          · exact of_pairs (hmarkup.expandBegin text)
          · exact hexpand _ rfl text

theorem resolveUntil (hR : Bot.Unseen a.user R) (hapart : a.playbook.topics.Apart)
    (hle : a.playbook.depth ≤ limit) {levels levels' : Nat} (hlevels : levels ≤ levels')
    (depth : Nat) (begin : Bool) (message : Text) :
    Follows R f (Answer.resolveUntil (.fault f) a levels depth begin message)
      (Answer.resolveUntil halt (a.within limit) levels' depth begin message) := by
  induction levels generalizing levels' depth begin message with
  | zero => exact .fault _
  | succ levels ih =>
    cases levels' with
    | zero => omega
    | succ levels' =>
      have hlevels := Nat.le_of_succ_le_succ hlevels
      exact respondUntil hR hapart hle (fun begin message => ih hlevels _ begin message) begin message

/-- A reply that does not come to the lower limit is the same with the higher one, whatever is done
there. -/
theorem answerUntil (hR : Bot.Unseen a.user R) (hapart : a.playbook.topics.Apart)
    (hle : a.playbook.depth ≤ limit) (message : Text) :
    Follows R f (Answer.answerUntil (.fault f) a message)
      (Answer.answerUntil halt (a.within limit) message) := by
  have hcall : ∀ depth begin message, Follows R f
      (Answer.resolveUntil (.fault f) a (a.playbook.depth + 2 - depth) depth begin message)
      (Answer.resolveUntil halt (a.within limit) (limit + 2 - depth) depth begin message) := by
    intro depth
    have hlevels : a.playbook.depth + 2 - depth ≤ limit + 2 - depth := by omega
    exact resolveUntil hR hapart hle hlevels depth
  unfold Answer.answerUntil
  by_cases hbegin : a.playbook.topics.has Topic.begin = true
  · have hwithin : (a.within limit).playbook.topics.has Topic.begin = true := hbegin
    rw [if_pos hbegin, if_pos hwithin]
    refine (hcall 0 true _).bind fun before => ?_
    refine Follows.bind ?_ fun text => expandUntil hR hle (hcall 1 false) text
    split
    · exact (hcall 0 false message).bind fun reply => .pure _
    · exact .pure before
  · have hwithin : ¬ (a.within limit).playbook.topics.has Topic.begin = true := hbegin
    rw [if_neg hbegin, if_neg hwithin]
    exact hcall 0 false message

end Follows

/-! ### Bots with two limits -/

/-- The limit of a bot is not read before the next sorting. -/
theorem Document.ofText_depth (settings : Settings) (limit : Nat) (source code : Text) :
    ofText { settings with depth := limit } source code = ofText settings source code := by
  have hsteps : ∀ number lines r, Reading.steps { settings with depth := limit } source number lines r =
      Reading.steps settings source number lines r := by
    intro number lines
    induction lines generalizing number with
    | nil => exact fun r => rfl
    | cons line lines ih =>
      intro r
      rw [Reading.steps, Reading.steps]
      simp only [ih]
      rfl
  rw [ofText, ofText, hsteps]

namespace Bot

/-- What remains of a bot without its limit, and without what was sorted with it. -/
def limitless (b : Bot) : Bot :=
  { b with settings := { b.settings with depth := 0 }, playbook := none }

theorem limitless_hotLoad (b : Bot) (code : Text) : (b.hotLoad code).2.limitless =
    ((b.limitless.stream code).toOption).getD b.limitless := by
  have hstream : b.limitless.stream code = (b.stream code).map limitless := by
    rw [stream, stream, load, load]
    show (Document.ofText { b.settings with depth := 0 } _ code).map _ = _
    rw [Document.ofText_depth]
    cases Document.ofText b.settings "stream()" code <;> rfl
  rw [hstream, hotLoad]
  cases b.stream code with
  | error fault => rfl
  | ok loaded =>
    dsimp only
    split
    · rfl
    · rename_i hsort
      obtain ⟨p, -, rfl⟩ := ok_of_map hsort
      rfl

/-- No reply sees the limit of the bot itself. -/
theorem unseen_limitless (user : Text) : Unseen user fun b c => b.limitless = c.limitless where
  setback h kind := by
    have hsame := congrArg (setbackResult · kind) h
    exact hsame
  alike h p :=
    { history := congrArg (·.roster.history user) h
      var := fun name => congrArg (·.roster.var? user name) h
      botVar := fun name => congrArg (·.vars.find? name) h
      global := fun name => congrArg (·.globals.find? name) h
      wording := congrArg (·.settings.wording) h
      call := fun name args => congrArg (·.callables.call? name user args) h
      previous := fun topic message => by
        have hsame := congrArg (Selection.matchPrevious · p user topic message) h
        exact hsame
      trigger := fun topic message => by
        have hsame := congrArg (Selection.matchTrigger · p user topic message) h
        exact hsame }
  alter h f := congrArg (·.onRoster (·.alter user f)) h
  setVar h name value := congrArg (·.setVar name value) h
  setGlobal h name value := congrArg (·.setGlobal name value) h
  hotLoad {b c} h code := by rw [limitless_hotLoad, limitless_hotLoad, h]

variable {b c : Bot} {p q : Playbook} {draws : List Nat} {user message : Text}

/-- The run that ends in an answer, or in what is done at the limit. -/
def answeredUntil (halt : Halt) (b : Bot) (p : Playbook) (draws : List Nat) (user message : Text) :
    Except Fault Text × Process :=
  (Answer.answerUntil halt ⟨user, p⟩ (p.canon.format false message)).run.run
    { bot := b.onRoster (·.welcome user), draws }

/-- The limit is not hit: whatever were done there, the answer is the same. -/
def Unhalted (b : Bot) (p : Playbook) (draws : List Nat) (user message : Text) : Prop :=
  ∀ halt, (b.answeredUntil halt p draws user message).1 = (b.answered p draws user message).1

theorem answeredUntil_usual :
    b.answeredUntil .usual p draws user message = b.answered p draws user message := by
  rw [answeredUntil, answered, Answer.answerUntil_usual]

theorem answeredUntil_follows {f : Fault} (h : b.limitless = c.limitless) (hapart : p.topics.Apart)
    {limit : Nat} (hle : p.depth ≤ limit)
    (hfault : (b.answeredUntil (.fault f) p draws user message).1 ≠ .error f) (halt : Halt) :
    (b.answeredUntil (.fault f) p draws user message).1 =
        (c.answeredUntil halt { p with depth := limit } draws user message).1 ∧
      (b.answeredUntil (.fault f) p draws user message).2.Paired (fun b c => b.limitless = c.limitless)
        (c.answeredUntil halt { p with depth := limit } draws user message).2 := by
  have hstart : b.limitless.onRoster (·.welcome user) = c.limitless.onRoster (·.welcome user) := by
    rw [h]
  exact Follows.answerUntil (a := ⟨user, p⟩) (unseen_limitless user) hapart hle
    (p.canon.format false message) _ _ ⟨hstart, rfl, rfl, rfl⟩ hfault

/-- That a limit is not hit shows as soon as it would be a fault. -/
theorem unhalted_of_fault {f : Fault} (hapart : p.topics.Apart)
    (hfault : (b.answeredUntil (.fault f) p draws user message).1 ≠ .error f) :
    b.Unhalted p draws user message := by
  have hsame := fun halt => (answeredUntil_follows rfl hapart (Nat.le_refl p.depth) hfault halt).1
  intro halt
  rw [← answeredUntil_usual]
  exact (hsame halt).symm.trans (hsame .usual)

theorem Unhalted.answered (h : b.Unhalted p draws user message) (hbc : b.limitless = c.limitless)
    (hapart : p.topics.Apart) {limit : Nat} (hle : p.depth ≤ limit) :
    (b.answered p draws user message).1 =
        (c.answered { p with depth := limit } draws user message).1 ∧
      (b.answered p draws user message).2.Paired (fun b c => b.limitless = c.limitless)
        (c.answered { p with depth := limit } draws user message).2 := by
  -- A fault that is not the result shows that the run is the same for both, and the same as itself.
  obtain ⟨f, hf⟩ : ∃ f, (b.answered p draws user message).1 ≠ .error f := by
    by_cases hone : (b.answered p draws user message).1 = .error (.setback .tooDeep [])
    · refine ⟨.setback .noReply [], fun hother => ?_⟩
      rw [hone] at hother
      cases hother
    · exact ⟨_, hone⟩
  have hfault : (b.answeredUntil (.fault f) p draws user message).1 ≠ .error f := by
    rw [h]
    exact hf
  obtain ⟨hself, hselfPaired⟩ := answeredUntil_follows rfl hapart (Nat.le_refl p.depth) hfault .usual
  obtain ⟨hother, hotherPaired⟩ := answeredUntil_follows hbc hapart hle hfault .usual
  rw [answeredUntil_usual] at hself hselfPaired hother hotherPaired
  refine ⟨hself.symm.trans hother, ?_⟩
  constructor
  · exact hselfPaired.bot.symm.trans hotherPaired.bot
  · exact hselfPaired.steps.symm.trans hotherPaired.steps
  · exact hselfPaired.tried.symm.trans hotherPaired.tried
  · exact hselfPaired.draws.symm.trans hotherPaired.draws

/-- Bots whose topics stand apart reply alike with two limits, and know the same afterwards, if the lower
limit is not hit. -/
theorem reply_within_limits {s : Script} {limit limit' : Nat}
    (hp : Playbook.ofScript b.settings limit s = .ok p)
    (hq : Playbook.ofScript c.settings limit' s = .ok q) (hapart : s.topics.Apart)
    (hb : b.playbook = some p) (hc : c.playbook = some q) (h : b.limitless = c.limitless)
    (hle : limit ≤ limit') (hunhalted : b.Unhalted p draws user message) :
    (b.reply draws user message).result = (c.reply draws user message).result ∧
      (b.reply draws user message).bot.limitless = (c.reply draws user message).bot.limitless := by
  obtain rfl := Playbook.eq_build hp
  obtain rfl := Playbook.eq_build hq
  have hutf8 : b.settings.utf8 = c.settings.utf8 := congrArg (·.settings.utf8) h
  have hpunctuation : b.settings.punctuation = c.settings.punctuation :=
    congrArg (·.settings.punctuation) h
  have hengine : b.settings.engine = c.settings.engine := congrArg (·.settings.engine) h
  have hbuild := Playbook.build_within hapart hutf8 hpunctuation hengine limit limit'
  obtain ⟨hanswer, hpaired⟩ := hunhalted.answered h hapart hle
  rw [← hbuild] at hanswer hpaired
  rcases hbrun : b.answered (.build b.settings limit s) draws user message with ⟨result, r⟩
  rcases hcrun : c.answered (.build c.settings limit' s) draws user message with ⟨result', r'⟩
  rw [hbrun, hcrun] at hanswer hpaired
  obtain rfl : result = result' := hanswer
  cases result with
  | error fault =>
    rw [reply_of_fault hb hbrun, reply_of_fault hc hcrun]
    exact ⟨rfl, hpaired.bot⟩
  | ok text =>
    rw [reply_of_text hb hbrun, reply_of_text hc hcrun, hbuild]
    refine ⟨?_, ?_⟩
    · rw [exchange, exchange, hpaired.steps, hpaired.tried]
    · exact (unseen_limitless user).alter hpaired.bot _

/-- A bot that was sorted with a limit. -/
def limited (limit : Nat) (s : Script) : Bot where
  settings := { depth := limit }
  script := s
  playbook := some (.build { depth := limit } limit s)

/-- One rule that has one reply. -/
def replying (reply : Text) : Script :=
  { topics := ⟨[("random", { rules := [{ pattern := "hi", replies := [reply] }] })]⟩ }

theorem apart_replying (reply : Text) : (replying reply).topics.Apart :=
  Topics.apart_of_entries fun e he => by
    obtain rfl := List.mem_singleton.mp he
    exact ⟨rfl, rfl⟩

/-- No kind of markup occurs twice. -/
def welcome : Script :=
  replying "\x7brandom\x7dHello|Hi\x7b/random\x7d, \x7bformal\x7dmy friend\x7b/formal\x7d.\x7btopic=random\x7d"

theorem welcome_within_limits :
    told ((limited 1 welcome).reply [0, 1] "user" "Hi!") = some ("Hi, My Friend." : Text) ∧
      told ((limited 2 welcome).reply [0, 1] "user" "Hi!") = some ("Hi, My Friend." : Text) ∧
      ((limited 1 welcome).reply [0, 1] "user" "Hi!").bot.roster =
        ((limited 2 welcome).reply [0, 1] "user" "Hi!").bot.roster := by
  have htold : told ((limited 1 welcome).reply [0, 1] "user" "Hi!") = some ("Hi, My Friend." : Text) := by
    decide +kernel
  have hunhalted : (limited 1 welcome).Unhalted (.build { depth := 1 } 1 welcome) [0, 1] "user" "Hi!" := by
    have hanswered : ((limited 1 welcome).answeredUntil (.fault (.setback .tooDeep []))
        (.build { depth := 1 } 1 welcome) [0, 1] "user" "Hi!").1.toOption =
          some ("Hi, My Friend." : Text) := by
      decide +kernel
    refine unhalted_of_fault (f := .setback .tooDeep []) (apart_replying _) fun hfault => ?_
    rw [hfault] at hanswered
    cases hanswered
  have hsorted : ∀ limit, Playbook.ofScript { depth := limit } limit welcome =
      .ok (.build { depth := limit } limit welcome) :=
    fun limit => Playbook.ofScript_of_lenient rfl limit welcome
  obtain ⟨hresult, hbot⟩ := reply_within_limits (b := limited 1 welcome) (c := limited 2 welcome)
    (hsorted 1) (hsorted 2) (apart_replying _) rfl rfl rfl (by decide) hunhalted
  refine ⟨htold, ?_, congrArg (·.roster) hbot⟩
  rw [told, ← hresult]
  exact htold

/-- Two lots are drawn. -/
def tosses : Script := replying "\x7brandom\x7da\x7b/random\x7d\x7brandom\x7db\x7b/random\x7d"

/-- Two topics are entered. -/
def strolls : Script := replying "\x7btopic=cave\x7d\x7btopic=random\x7dHere I am."

/-- With a limit of one, what occurs twice is carried out once. -/
theorem limits_tell_apart :
    tosses.topics.Apart ∧ strolls.topics.Apart ∧
    (limited 1 tosses).limitless = (limited 2 tosses).limitless ∧
    (limited 1 strolls).limitless = (limited 2 strolls).limitless ∧
    told ((limited 1 tosses).reply [] "user" "Hi!") =
      some ("a\x7brandom\x7db\x7b/random\x7d" : Text) ∧
    told ((limited 2 tosses).reply [] "user" "Hi!") = some ("ab" : Text) ∧
    ((limited 1 strolls).reply [] "user" "Hi!").bot.roster.var? "user" "topic" = some "cave" ∧
    ((limited 2 strolls).reply [] "user" "Hi!").bot.roster.var? "user" "topic" = some "random" := by
  refine ⟨apart_replying _, apart_replying _, rfl, rfl, ?_, ?_, ?_, ?_⟩
  · decide +kernel
  · decide +kernel
  · decide +kernel
  · decide +kernel

end Bot

end Dialogue
