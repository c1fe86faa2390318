import Dialogue.Proofs.Reply
import Mathlib.Data.List.Chain
import Mathlib.Logic.Function.Iterate

/-! Redirects lead one deeper each, and no deeper than the playbook allows. -/
namespace Dialogue.Answer

open Answering Expansion

variable {a : Asking} {call call' : Answerer} {depth : Nat}

/-- Markup asks for nothing but answers one deeper than its own message. -/
theorem expand_congr {turn : Turn}
    (h : call (turn.depth + 1) false = call' (turn.depth + 1) false) (t : Text) :
    expand a call turn t = expand a call' turn t := by
  have hredirect : redirect call turn = redirect call' turn := by
    funext target
    rw [redirect, redirect, h]
  simp only [expand, hredirect]

/-- An answer asks for nothing but answers one deeper. -/
theorem respond_congr (h : call (depth + 1) = call' (depth + 1)) :
    respond a call depth = respond a call' depth := by
  have hexpand (message topic : Text) (stars botStars : List Text) :
      expand a call ⟨depth, message, topic, stars, botStars⟩ =
        expand a call' ⟨depth, message, topic, stars, botStars⟩ :=
    funext fun t => expand_congr (congrFun h false) t
  funext begin message
  simp only [respond, h, hexpand]

theorem respond_tooDeep (h : a.playbook.depth < depth) (call : Answerer) :
    respond a call depth = fun _ _ => setback .tooDeep := by
  funext begin message
  exact if_pos h

theorem answerWith_congr (h0 : call 0 = call' 0) (h1 : call 1 false = call' 1 false)
    (message : Text) : answerWith a call message = answerWith a call' message := by
  have hexpand : expand a call {} = expand a call' {} := funext fun t => expand_congr h1 t
  simp only [answerWith, h0, hexpand]

theorem iterate_respond_succ (f : Answerer) (n depth : Nat) :
    (respond a)^[n + 1] f depth = respond a ((respond a)^[n] f) depth := by
  rw [Function.iterate_succ_apply']

theorem resolveFrom_eq (a : Asking) (levels : Nat) :
    resolveFrom a levels = (respond a)^[levels] fun _ _ _ => setback .tooDeep := by
  induction levels with
  | zero => rfl
  | succ levels ih => rw [Function.iterate_succ_apply', ← ih, resolveFrom]

/-- Once there are levels enough, it makes no difference what stands below the last one. -/
theorem iterate_respond_eq {m n : Nat} (hm : a.playbook.depth < depth + m)
    (hn : a.playbook.depth < depth + n) (f g : Answerer) :
    (respond a)^[m + 1] f depth = (respond a)^[n + 1] g depth := by
  induction m generalizing depth n with
  | zero =>
    have hd : a.playbook.depth < depth := hm
    simp only [iterate_respond_succ, respond_tooDeep hd]
  | succ m ih =>
    rw [iterate_respond_succ, iterate_respond_succ]
    by_cases hd : a.playbook.depth < depth
    · simp only [respond_tooDeep hd]
    · cases n with
      | zero => omega
      | succ n => exact respond_congr (ih (by omega) (by omega))

theorem iterate_respond_eq_resolve {n : Nat} (hn : a.playbook.depth < depth + n) (f : Answerer) :
    (respond a)^[n + 1] f depth = resolve a depth := by
  rw [resolve, resolveFrom_eq]
  by_cases hd : depth < a.playbook.depth + 2
  · have hm : a.playbook.depth + 2 - depth = a.playbook.depth + 1 - depth + 1 := by omega
    rw [hm]
    exact iterate_respond_eq hn (by omega) _ _
  · rw [Nat.sub_eq_zero_of_le (Nat.le_of_not_lt hd), iterate_respond_succ]
    exact respond_tooDeep (by omega) _

theorem resolve_eq_respond (a : Asking) : resolve a = respond a (resolve a) := by
  funext depth
  have hlevels : a.playbook.depth < depth + (a.playbook.depth + 1) := by omega
  rw [← iterate_respond_eq_resolve hlevels (resolve a), iterate_respond_succ]
  exact respond_congr (iterate_respond_eq_resolve (by omega) _)

theorem answer_eq_resolve {a : Asking} (h : a.playbook.topics.has Topic.begin = false)
    (message : Text) : answer a message = resolve a 0 false message := by
  rw [answer, answerWith, if_neg (by simp [h])]

/-- Down to the deepest level there is only one way to answer that does as `respond` says, whatever
it does below. -/
theorem eq_resolve_of_eq_respond {f : Answerer}
    (h : ∀ depth ≤ a.playbook.depth + 1, f depth = respond a f depth)
    (hd : depth ≤ a.playbook.depth + 1) : f depth = resolve a depth := by
  obtain ⟨levels, hlevels⟩ := Nat.exists_eq_add_of_le hd
  clear hd
  induction levels generalizing depth with
  | zero =>
    have hlt : a.playbook.depth < depth := by omega
    rw [h depth (by omega), resolve_eq_respond, respond_tooDeep hlt, respond_tooDeep hlt]
  | succ levels ih =>
    rw [h depth (by omega), resolve_eq_respond]
    exact respond_congr (ih (by omega))

/-- However often a text changes under its own replacements, no more of them are made than the
limit allows. -/
theorem editEach_passes {α : Type} (read : Reader α) (f : α → Answering Text) (limit : Nat)
    (t : Text) (p : Process) : ∃ found : List α, found.length ≤ limit ∧
      ((editEach read f limit t).run.run p).2 =
        found.foldl (fun q a => ((f a).run.run q).2) p := by
  induction limit generalizing t p with
  | zero => exact ⟨[], Nat.le_refl _, rfl⟩
  | succ limit ih =>
    unfold editEach
    split
    · exact ⟨[], Nat.zero_le _, rfl⟩
    · rename_i before a rest _
      rw [run_bind]
      rcases hr : (f a).run.run p with ⟨result, q⟩
      cases result with
      | error fault => exact ⟨[a], by simp, by simp [hr]⟩
      | ok new =>
        obtain ⟨found, hlen, hq⟩ := ih (before ++ new ++ rest) q
        exact ⟨a :: found, by simpa using hlen, by simpa [hr] using hq⟩

/-- Between two processes only steps of at least this depth were opened, none of them deeper than
the limit, and none of them more than one deeper than the step before it. -/
def Nested (limit depth : Nat) (p q : Process) : Prop :=
  ∃ new, q.steps.map Step.depth = p.steps.map Step.depth ++ new ∧
    (∀ d ∈ new, depth ≤ d ∧ d ≤ limit) ∧ ((depth - 1) :: new).IsChain fun d e => e ≤ d + 1

variable {limit : Nat}

theorem Nested.of_eq {p q : Process} (h : q.steps.map Step.depth = p.steps.map Step.depth) :
    Nested limit depth p q :=
  ⟨[], by simp [h], by simp, List.isChain_singleton _⟩

theorem Nested.trans {p q r : Process} (hpq : Nested limit depth p q)
    (hqr : Nested limit depth q r) : Nested limit depth p r := by
  obtain ⟨new, hq, hnew, hchain⟩ := hpq
  obtain ⟨new', hr, hnew', hchain'⟩ := hqr
  refine ⟨new ++ new', by rw [hr, hq, List.append_assoc], ?_, ?_⟩
  · intro d hd
    exact (List.mem_append.mp hd).elim (hnew d) (hnew' d)
  · rw [← List.cons_append, List.isChain_append]
    refine ⟨hchain, hchain'.tail, fun d hd e he => ?_⟩
    have hge : depth - 1 ≤ d := by
      rcases List.mem_cons.mp (List.mem_of_getLast? hd) with rfl | hd
      · exact Nat.le_refl _
      · exact Nat.le_trans (Nat.sub_le _ _) (hnew d hd).1
    have hle : e ≤ depth - 1 + 1 := hchain'.rel_head? he
    omega

theorem map_modify {α : Type} (g : Step → α) (steps : List Step) (position : Nat) {f : Step → Step}
    (hf : ∀ s, g (f s) = g s) : (steps.modify position f).map g = steps.map g := by
  induction steps generalizing position with
  | nil => simp
  | cons s steps ih => cases position <;> simp [hf, ih]

theorem Nested.composes (limit depth : Nat) : Composes (Nested limit depth) :=
  ⟨fun _ => .of_eq rfl, .trans⟩

theorem Nested.admitsStep (a : Asking) (step limit depth : Nat) :
    AdmitsStep a step (Nested limit depth) where
  toComposes := Nested.composes limit depth
  draw _ _ := .of_eq rfl
  setVar _ _ _ := .of_eq rfl
  setBotVar _ _ _ := .of_eq rfl
  setGlobal _ _ _ := .of_eq rfl
  hotLoad _ _ := .of_eq rfl
  setLastMatch _ _ := .of_eq rfl
  countTried _ _ := .of_eq (map_modify Step.depth _ _ fun _ => rfl)
  record _ _ _ := .of_eq (map_modify Step.depth _ _ fun _ => rfl)

theorem Nested.openStep {p q : Process} {s : Step} (hs : s.depth = depth) (hle : depth ≤ limit)
    (h : Nested limit (depth + 1) { p with steps := p.steps ++ [s] } q) :
    Nested limit depth p q := by
  obtain ⟨new, hq, hnew, hchain⟩ := h
  refine ⟨depth :: new, by simp [hq, hs], ?_, ?_⟩
  · rintro d (_ | ⟨_, hd⟩)
    · exact ⟨Nat.le_refl _, hle⟩
    · have hd := hnew d hd
      omega
  · exact List.isChain_cons_cons.mpr ⟨by omega, hchain⟩

theorem Nested.admitsAnswers (a : Asking) :
    AdmitsRun a fun depth _ => Nested a.playbook.depth depth where
  step depth closed := Nested.admitsStep a closed _ depth
  openStep hs _ := Nested.openStep hs
  lower := by
    rintro _ p q ⟨new, hq, hnew, hchain⟩
    exact ⟨new, hq, fun d hd => ⟨Nat.zero_le _, (hnew d hd).2⟩, hchain⟩

/-- Steps within the limit, none more than one deeper than the step before it. -/
def Descends (limit : Nat) (steps : List Step) : Prop :=
  (∀ s ∈ steps, s.depth ≤ limit) ∧
    (0 :: steps.map Step.depth).IsChain fun d e => e ≤ d + 1

theorem descends_of_reply {b : Bot} {p : Playbook} (hp : b.playbook = some p) {draws : List Nat}
    {user message : Text} {exchange : Exchange}
    (h : (b.reply draws user message).result = .ok exchange) : Descends p.depth exchange.steps := by
  have hmoves := moves_answer (Nested.admitsAnswers ⟨user, p⟩) (p.canon.format false message)
    { bot := b.onRoster (·.welcome user), draws }
  simp only [Bot.reply, hp] at h
  split at h
  · contradiction
  · rename_i reply q hrun
    rw [hrun] at hmoves
    obtain ⟨new, hnew, hle, hchain⟩ := hmoves
    have hsteps : q.steps.map Step.depth = new := by simpa using hnew
    cases h
    refine ⟨fun s hs => ?_, by rwa [hsteps]⟩
    exact (hle s.depth (hsteps ▸ List.mem_map_of_mem hs)).2

/-- How far answers can lead: all of it is bounded by the depth of the playbook. -/
structure Bounded (a : Asking) : Prop where
  /-- `resolve` does as `respond` says, and nothing else does that one level past the limit. -/
  solution : resolve a = respond a (resolve a)
  unique : ∀ f : Answerer, (∀ depth ≤ a.playbook.depth + 1, f depth = respond a f depth) →
    ∀ depth ≤ a.playbook.depth + 1, f depth = resolve a depth
  /-- It is found after finitely many levels, and no answer depends on what stands below. -/
  levels : ∀ f depth n, a.playbook.depth < depth + n →
    (respond a)^[n + 1] f depth = resolve a depth
  /-- Markup asks for answers one deeper than its own message, and so does a rule. -/
  markup : ∀ (call call' : Answerer) (turn : Turn) (t : Text),
    call (turn.depth + 1) false = call' (turn.depth + 1) false →
    expand a call turn t = expand a call' turn t
  rule : ∀ (call call' : Answerer) (depth : Nat),
    (depth ≤ a.playbook.depth → call (depth + 1) = call' (depth + 1)) →
    respond a call depth = respond a call' depth
  /-- The message itself is answered at depth zero, where what is said before it stands too. -/
  first : ∀ (call call' : Answerer) (message : Text), call 0 = call' 0 →
    call 1 false = call' 1 false → answerWith a call message = answerWith a call' message
  /-- Each part of the markup is replaced only so many times. -/
  passes : ∀ {α : Type} (read : Reader α) (f : α → Answering Text) (limit : Nat) (t : Text)
    (p : Process), ∃ found : List α, found.length ≤ limit ∧
      ((editEach read f limit t).run.run p).2 = found.foldl (fun q a => ((f a).run.run q).2) p
  /-- Past the limit nothing is looked at and nothing is changed. -/
  deepest : ∀ depth begin message p, a.playbook.depth < depth →
    (resolve a depth begin message).run.run p = (setbackResult p.bot .tooDeep, p)
  steps : ∀ message p, Nested a.playbook.depth 0 p ((answer a message).run.run p).2
  record : ∀ (b : Bot) (draws : List Nat) (message : Text) (exchange : Exchange),
    b.playbook = some a.playbook → (b.reply draws a.user message).result = .ok exchange →
    Descends a.playbook.depth exchange.steps

theorem bounded (a : Asking) : Bounded a where
  solution := resolve_eq_respond a
  unique _ h _ := eq_resolve_of_eq_respond h
  levels f _ _ hn := iterate_respond_eq_resolve hn f
  markup _ _ _ t h := expand_congr h t
  rule call call' depth h := by
    by_cases hd : a.playbook.depth < depth
    · rw [respond_tooDeep hd, respond_tooDeep hd]
    · exact respond_congr (h (Nat.le_of_not_lt hd))
  first _ _ message h0 h1 := answerWith_congr h0 h1 message
  passes := editEach_passes
  deepest depth begin message p hd := by
    rw [resolve_eq_respond, respond_tooDeep hd]
    exact run_setback .tooDeep p
  steps message p := moves_answer (Nested.admitsAnswers a) message p
  record _ _ _ _ hp h := descends_of_reply hp h

def echo : Playbook where
  topics := ⟨[("random", { rules := [{ pattern := "again", redirect := some "again" }] })]⟩
  ranked := ⟨[("random", ["again"])]⟩
  depth := 1

theorem echo_bounded : ∃ exchange : Exchange,
    (Bot.reply { playbook := some echo } [] "user" "again").result = .ok exchange ∧
      exchange.reply = "ERR: Deep Recursion Detected" ∧
      exchange.steps.map Step.depth = [0, 1] ∧ Descends 1 exchange.steps := by
  have hreply : (Bot.reply { playbook := some echo } [] "user" "again").result = .ok
      { reply := "ERR: Deep Recursion Detected"
        message := "again"
        steps := [⟨0, "random", "again", some "again", false, 1, false⟩,
          ⟨1, "random", "again", some "again", false, 1, false⟩]
        tried := 2 } := rfl
  exact ⟨_, hreply, rfl, rfl, (bounded ⟨"user", echo⟩).record _ _ _ _ rfl hreply⟩

end Dialogue.Answer
