import Dialogue.Proofs.Reply
import Dialogue.Proofs.Depth

/-! What the record says of the user's own message. It stands in the first step, and nothing that
happens later changes a step that is closed. -/
namespace Dialogue

open Answering Answer

/-- The first steps are the same before and after. -/
def Keeps (closed : Nat) (p q : Process) : Prop :=
  closed ≤ p.steps.length → closed ≤ q.steps.length ∧ q.steps.take closed = p.steps.take closed

namespace Keeps

variable {closed : Nat} {p q r : Process}

theorem of_eq (h : q.steps = p.steps) : Keeps closed p q := by
  intro hle
  rw [h]
  exact ⟨hle, rfl⟩

theorem trans (hpq : Keeps closed p q) (hqr : Keeps closed q r) : Keeps closed p r := by
  intro hle
  obtain ⟨hq, heq⟩ := hpq hle
  obtain ⟨hr, hreq⟩ := hqr hq
  exact ⟨hr, hreq.trans heq⟩

/-- The open step is the first that is not closed. -/
theorem modify (f : Step → Step) (h : q.steps = p.steps.modify closed f) : Keeps closed p q := by
  intro hle
  refine ⟨by rwa [h, List.length_modify], ?_⟩
  rw [h, List.modify_eq_take_drop, List.take_left' (List.length_take_of_le hle)]

theorem openStep {s : Step} (h : Keeps p.steps.length { p with steps := p.steps ++ [s] } q) :
    Keeps closed p q := by
  intro hle
  -- Inside the new step all steps before it are closed, not only the first few.
  obtain ⟨hq, heq⟩ := h (by simp)
  have hsame : q.steps.take p.steps.length = p.steps := by
    rw [heq, List.take_left]
  refine ⟨Nat.le_trans hle hq, ?_⟩
  rw [← hsame, List.take_take, Nat.min_eq_left hle]

end Keeps

theorem admitsRun_keeps (a : Asking) : AdmitsRun a fun _ closed => Keeps closed where
  step _ _ :=
    { refl := fun _ => .of_eq rfl
      trans := .trans
      draw := fun _ _ => .of_eq rfl
      setVar := fun _ _ _ => .of_eq rfl
      setBotVar := fun _ _ _ => .of_eq rfl
      setGlobal := fun _ _ _ => .of_eq rfl
      hotLoad := fun _ _ => .of_eq rfl
      setLastMatch := fun _ _ => .of_eq rfl
      countTried := fun _ _ => .modify _ rfl
      record := fun _ _ _ => .modify _ rfl }
  openStep _ _ _ h := h.openStep
  lower h := h

/-! ### The first step -/

/-- The message was compared with the triggers of a topic, and one of them answered. -/
def AnsweredBy (topic message pattern : Text) (steps : List Step) : Prop :=
  ∃ step, steps.head? = some step ∧ step.topic = topic ∧ step.message = message ∧
    step.matched = some pattern

theorem AnsweredBy.of_keeps {topic message pattern : Text} {p q : Process} (h : Keeps 1 p q)
    (hp : AnsweredBy topic message pattern p.steps) : AnsweredBy topic message pattern q.steps := by
  obtain ⟨step, hstep, hrest⟩ := hp
  refine ⟨step, ?_, hrest⟩
  obtain ⟨rest, hsteps⟩ := List.head?_eq_some_iff.mp hstep
  obtain ⟨-, htake⟩ := h (by simp [hsteps])
  rw [hsteps, List.take_succ_cons, List.take_zero] at htake
  cases hq : q.steps with
  | nil =>
    rw [hq] at htake
    cases htake
  | cons first _ =>
    rw [hq] at htake
    exact congrArg some (List.cons.inj htake).1

variable {a : Asking} {p : Process} {topic message : Text}

theorem run_currentTopic
    (htopic : (p.bot.roster.var? a.user "topic").getD Topic.default = topic)
    (hthere : a.playbook.topics.has topic = true) :
    (currentTopic a false).run.run p = (.ok (some topic), p) := by
  simp only [currentTopic, Bool.false_eq_true, if_false]
  rw [run_bot]
  simp only [htopic, hthere, if_true]
  rfl

/-- What answers a user's own message: a rule that follows on the bot's last reply, or else a
trigger. -/
inductive Chooses (b : Bot) (a : Asking) (topic message : Text) (m : Match) : Prop where
  | previous {n : Nat} :
      Selection.matchPrevious b a.playbook a.user topic message = .ok (some m, n) →
        Chooses b a topic message m
  | trigger {k n : Nat} :
      Selection.matchPrevious b a.playbook a.user topic message = .ok (none, k) →
        Selection.matchTrigger b a.playbook a.user topic message = .ok (some m, n) →
          Chooses b a topic message m

/-- What is found is remembered and put on record in the open step. -/
theorem run_findRule {m : Match} {step : Step} (hsteps : p.steps = [step])
    (h : Chooses p.bot a topic message m) :
    ∃ q last, (findRule a true 0 topic message).run.run p = (.ok (some m), q) ∧
      q.bot = p.bot.onRoster (·.setLastMatch a.user m.rule.pattern) ∧ q.steps = [last] ∧
        last.topic = step.topic ∧ last.message = step.message ∧
          last.matched = some m.rule.pattern := by
  obtain ⟨b, steps, tried, draws⟩ := p
  obtain rfl : steps = [step] := hsteps
  rw [findRule, run_bot]
  cases h with
  | previous hprevious =>
    simp only [hprevious, if_true]
    exact ⟨_, _, rfl, rfl, rfl, rfl, rfl, rfl⟩
  | trigger hprevious htrigger =>
    simp only [hprevious, htrigger, if_true]
    exact ⟨_, _, rfl, rfl, rfl, rfl, rfl, rfl⟩

theorem run_findRule_fault {fault : Fault}
    (hprevious : Selection.matchPrevious p.bot a.playbook a.user topic message = .ok (none, 0))
    (htrigger : Selection.matchTrigger p.bot a.playbook a.user topic message = .error fault) :
    ((findRule a true 0 topic message).run.run p).1 = .error fault := by
  rw [findRule, run_bot]
  simp only [hprevious, htrigger, if_true]
  rfl

/-- What has to be so that the user's own message is compared with the triggers of a topic. -/
structure Compares (a : Asking) (topic message : Text) (b : Bot) : Prop where
  not_begin : a.playbook.topics.has Topic.begin = false
  current : (b.roster.var? a.user "topic").getD Topic.default = topic
  there : a.playbook.topics.has topic = true
  previous : Selection.matchPrevious b a.playbook a.user topic message = .ok (none, 0)

/-- An answer finds a rule in the first step and closes that step before it goes on. -/
theorem run_answer (h : Compares a topic message p.bot) (hsteps : p.steps = []) :
    ∃ next : Option Match → Answering Text, (∀ found, Moves (Keeps 1) (next found)) ∧
      (answer a message).run.run p = (findRule a true 0 topic message >>= next).run.run
        { p with steps := [{ depth := 0, topic, message }] } := by
  have hanswer : answer a message = respond a (resolve a) 0 false message := by
    rw [answer, answerWith, if_neg (by simp [h.not_begin]), ← resolve_eq_respond]
  obtain ⟨b, steps, tried, draws⟩ := p
  obtain rfl : steps = [] := hsteps
  refine ⟨?next, ?moves, ?run⟩
  case run =>
    rw [hanswer, respond, if_neg (Nat.not_lt_zero _), run_bind, run_currentTopic h.current h.there]
    exact rfl
  case moves =>
    intro found
    have hrules := (admitsRun_keeps a).rules
    cases found with
    | none => exact hrules.setback (d := 0) (k := 1) _
    | some m =>
      have hmarkup := hrules.markup 1 1
      exact hmarkup.conclude (fun begin message => hrules.resolve _ begin message) m

theorem answeredBy_answer (h : Compares a topic message p.bot) (hsteps : p.steps = []) {m : Match}
    {n : Nat}
    (htrigger : Selection.matchTrigger p.bot a.playbook a.user topic message = .ok (some m, n)) :
    AnsweredBy topic message m.rule.pattern ((answer a message).run.run p).2.steps := by
  obtain ⟨next, hnext, hrun⟩ := run_answer h hsteps
  obtain ⟨q, last, hq, -, hlast, htopic, hmessage, hmatched⟩ := run_findRule
    (p := { p with steps := [{ depth := 0, topic, message }] }) rfl (.trigger h.previous htrigger)
  have hanswered : AnsweredBy topic message m.rule.pattern q.steps :=
    ⟨last, by rw [hlast]; rfl, htopic, hmessage, hmatched⟩
  rw [hrun, run_bind, hq]
  exact hanswered.of_keeps (hnext (some m) q)

theorem answer_fault (h : Compares a topic message p.bot) (hsteps : p.steps = []) {fault : Fault}
    (htrigger : Selection.matchTrigger p.bot a.playbook a.user topic message = .error fault) :
    ((answer a message).run.run p).1 = .error fault := by
  obtain ⟨next, -, hrun⟩ := run_answer h hsteps
  have hfault := run_findRule_fault
    (p := { p with steps := [{ depth := 0, topic, message }] }) h.previous htrigger
  rw [hrun, run_bind]
  generalize (findRule a true 0 topic message).run.run _ = found at hfault ⊢
  obtain ⟨result, q⟩ := found
  obtain rfl : result = .error fault := hfault
  rfl

end Dialogue
