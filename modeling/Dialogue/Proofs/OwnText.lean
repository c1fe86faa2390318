import Dialogue.Proofs.FirstStep
import Dialogue.Proofs.Lookback
import Dialogue.Proofs.Rendering
import Dialogue.Proofs.Rival

/-! A message that is itself the text of a trigger. The trigger answers unless one of its rivals,
which the scan takes for more specific than they are, stops the message before. -/
namespace Dialogue

open Selection

namespace Plain

variable {s : Script} {name : Text} {topic : Topic} {settings : Settings} {depth : Nat}

theorem looksBack_eq_false (h : Plain s name topic) (names : List Text) :
    (Playbook.build settings depth s).looksBack names = false := by
  have hindex : Lookback.index topic = [] := Lookback.index_eq_nil.mpr h.previous
  have hnone : (Playbook.build settings depth s).lookbacks = {} := by
    simp [Playbook.build, h.only, hindex]
  rw [Playbook.looksBack, hnone, List.any_eq_false]
  exact fun _ _ => Bool.false_ne_true

theorem matchPrevious_eq (h : Plain s name topic) (b : Bot) (user message : Text) :
    matchPrevious b (Playbook.build settings depth s) user name message = .ok (none, 0) := by
  simp only [matchPrevious, h.looksBack_eq_false, Bool.not_false, Bool.true_or, if_true]

end Plain

theorem Roster.profile?_welcome (r : Roster) (user : Text) :
    (r.welcome user).profile? user = some ((r.profile? user).getD {}) :=
  Table.find?_alter_self r.users user {} id

theorem Roster.getD_var?_welcome (r : Roster) (user : Text) :
    ((r.welcome user).var? user "topic").getD Topic.default =
      (r.var? user "topic").getD Topic.default := by
  rw [var?, var?, profile?_welcome]
  cases r.profile? user <;> rfl

theorem surroundings_welcome (b : Bot) (p : Playbook) (user : Text) :
    surroundings (b.onRoster (·.welcome user)) p user = surroundings b p user := by
  simp only [surroundings, Bot.onRoster, Roster.profile?_welcome, Option.getD_some]

theorem Plain.compares {s : Script} {name : Text} {topic : Topic} (h : Plain s name topic)
    (settings : Settings) (depth : Nat) {b : Bot} {user : Text} (message : Text)
    (huser : (b.roster.var? user "topic").getD Topic.default = name) :
    Compares ⟨user, Playbook.build settings depth s⟩ name message
      (b.onRoster (·.welcome user)) where
  not_begin := by
    show (s.topics.find? Topic.begin).isSome = false
    cases hf : s.topics.find? Topic.begin with
    | none => rfl
    | some t => exact absurd (h.find?_eq_some.mp hf).1.symm h.not_begin
  current := (b.roster.getD_var?_welcome user).trans huser
  there := by
    show (s.topics.find? name).isSome = true
    rw [h.find?_eq_some.mpr ⟨rfl, rfl⟩]
    rfl
  previous := h.matchPrevious_eq _ _ _

/-- A message is answered by a trigger: so says the record of the run, and that of the exchange if
there is a reply, which there is unless the bot throws or is strict. -/
structure Answered (b : Bot) (p : Playbook) (draws : List Nat) (user message topic t q : Text) :
    Prop where
  run : AnsweredBy topic t q (b.answered p draws user message).2.steps
  reply : ∀ e, (b.reply draws user message).result = .ok e → AnsweredBy topic t q e.steps
  given : b.settings.throws = false → b.settings.strict = false →
    ∃ e, (b.reply draws user message).result = .ok e

theorem Answered.of_run {b : Bot} {p : Playbook} (hb : b.playbook = some p) {draws : List Nat}
    {user message topic t q : Text}
    (h : AnsweredBy topic t q (b.answered p draws user message).2.steps) :
    Answered b p draws user message topic t q where
  run := h
  reply e he := by
    obtain ⟨reply, r, hrun, rfl⟩ := Bot.answered_of_ok hb he
    rw [hrun] at h
    exact h
  given hthrows hstrict := by
    cases hr : (b.reply draws user message).result with
    | ok e => exact ⟨e, rfl⟩
    | error fault =>
      have hsame : b.throwing false = b := by
        rw [Bot.throwing, ← hthrows]
      rw [← hsame] at hr
      have hfault := (Bot.fault_of_rendering b draws user message hr).2
      rw [hstrict] at hfault
      cases hfault

/-- What comes of messages whose form is that of a literal trigger. -/
structure OwnAnswer (b : Bot) (p : Playbook) (user name : Text) (topic : Topic) (t : Text) :
    Prop where
  /-- The text of the trigger is such a message itself, in ASCII or where punctuation spares it. -/
  form : (if p.canon.utf8 then p.canon.punctuation.strip t = t else ∀ c ∈ t, c.toNat < 0x80) →
    p.canon.format false t = t
  undisturbed : (∀ q, ¬ Rival topic (surroundings b p user) b.settings.strict t q) →
    ∀ draws message, p.canon.format false message = t → Answered b p draws user message name t t
  disturbed : ∀ draws message, p.canon.format false message = t →
    (∃ q, (q = t ∨ Rival topic (surroundings b p user) b.settings.strict t q) ∧
      Answered b p draws user message name t q) ∨
    ∃ q fault, Rival topic (surroundings b p user) b.settings.strict t q ∧
      tryPattern (surroundings b p user) b.settings.strict q t = .error fault ∧
      (b.reply draws user message).result = .error fault

namespace Plain

variable {s : Script} {name : Text} {topic : Topic} {settings : Settings} {depth : Nat}

variable {p : Playbook} {t : Text} {b : Bot} {user : Text}

theorem decides_matchTrigger (hp : p = Playbook.build settings depth s) (h : Plain s name topic)
    (ht : IsLiteral t) (hr : ∃ r ∈ topic.rules, r.pattern = t) (b : Bot) (user : Text) :
    ∃ q, (q = t ∨ Rival topic (surroundings b p user) b.settings.strict t q) ∧
      Decides p (surroundings b p user) b.settings.strict name t q
        (matchTrigger (b.onRoster (·.welcome user)) p user name t) := by
  subst hp
  rw [matchTrigger, surroundings_welcome]
  exact h.decides ht hr settings

theorem disturbed (hp : p = Playbook.build settings depth s) (h : Plain s name topic)
    (ht : IsLiteral t) (hr : ∃ r ∈ topic.rules, r.pattern = t) (hb : b.playbook = some p)
    (huser : (b.roster.var? user "topic").getD Topic.default = name) (draws : List Nat)
    {message : Text} (hform : p.canon.format false message = t) :
    (∃ q, (q = t ∨ Rival topic (surroundings b p user) b.settings.strict t q) ∧
      Answered b p draws user message name t q) ∨
    ∃ q fault, (q = t ∨ Rival topic (surroundings b p user) b.settings.strict t q) ∧
      tryPattern (surroundings b p user) b.settings.strict q t = .error fault ∧
      (b.reply draws user message).result = .error fault := by
  obtain ⟨q, hq, hd⟩ := decides_matchTrigger hp h ht hr b user
  have hcompares : Compares ⟨user, p⟩ name t (b.onRoster (·.welcome user)) := by
    subst hp
    exact h.compares settings depth t huser
  have hrun : b.answered p draws user message = (Answer.answer ⟨user, p⟩ t).run.run
      { bot := b.onRoster (·.welcome user), draws } := by
    rw [Bot.answered, hform]
  rcases hd with ⟨m, n, ha, hm⟩ | ⟨fault, hfault, hm⟩
  · refine Or.inl ⟨q, hq, .of_run hb ?_⟩
    rw [hrun, ← ha.pattern_eq]
    exact answeredBy_answer hcompares rfl hm
  · have hend := answer_fault (p := { bot := b.onRoster (·.welcome user), draws }) hcompares rfl hm
    refine Or.inr ⟨q, fault, hq, hfault, ?_⟩
    rcases hend' : b.answered p draws user message with ⟨result, r⟩
    rw [← hrun, hend'] at hend
    obtain rfl : result = .error fault := hend
    rw [Bot.reply_of_fault hb hend']

end Plain

/-- A literal trigger answers its own text, unless a rival of it does. -/
theorem literal_answers {settings : Settings} {depth : Nat} {s : Script} {p : Playbook}
    (hp : Playbook.ofScript settings depth s = .ok p) {name : Text} {topic : Topic}
    (h : Plain s name topic) {t : Text} (ht : IsLiteral t) (hr : ∃ r ∈ topic.rules, r.pattern = t)
    {b : Bot} (hb : b.playbook = some p) {user : Text}
    (huser : (b.roster.var? user "topic").getD Topic.default = name) :
    OwnAnswer b p user name topic t := by
  have hbuild := Playbook.eq_build hp
  have hself : tryPattern (surroundings b p user) b.settings.strict t t = .ok (some []) := by
    obtain ⟨r, hr, hrt⟩ := hr
    exact tryPattern_literal _ _ ht (hrt ▸ h.weight r hr)
  have hdisturbed := fun draws message (hform : p.canon.format false message = t) =>
    h.disturbed hbuild ht hr hb huser draws hform
  refine ⟨fun hform => ?_, fun hnone draws message hform => ?_, fun draws message hform => ?_⟩
  · refine p.canon.format_literal ?_ ht hform
    rw [hbuild]
    exact Playbook.entries_substitution h.substitutions settings depth
  · rcases hdisturbed draws message hform with ⟨q, hq, hanswered⟩ | ⟨q, fault, hq, hfault, -⟩
    · obtain rfl := hq.resolve_right (hnone q)
      exact hanswered
    · obtain rfl := hq.resolve_right (hnone q)
      rw [hself] at hfault
      cases hfault
  · rcases hdisturbed draws message hform with hanswered | ⟨q, fault, hq, hfault, hresult⟩
    · exact Or.inl hanswered
    · refine Or.inr ⟨q, fault, hq.resolve_left fun heq => ?_, hfault, hresult⟩
      rw [heq, hself] at hfault
      cases hfault

def single (rules : List Rule) : Script := { topics := ⟨[("random", { rules })]⟩ }

/-- The first trigger counts more words than the literal one, and is tried before it. -/
def welcoming : List Rule :=
  [{ pattern := "(hi|hey) you there" }, { pattern := "hello there", replies := ["Hello."] },
    { pattern := "*" }]

def welcomer : Bot := { playbook := some (Playbook.build {} 50 (single welcoming)) }

theorem welcoming_no_rival (q : Text) : ¬ Rival { rules := welcoming }
    (surroundings welcomer (Playbook.build {} 50 (single welcoming)) "user") false
    "hello there" q := by
  rintro ⟨hne, hstops, hpass | ⟨-, r, hr, digits, hlevel⟩⟩
  · obtain ⟨r, hr, rfl⟩ := hpass.trigger
    rcases List.mem_cons.mp hr with rfl | hr
    · exact hstops.ne_none (Answering.ok_of_toOption (by decide +kernel))
    · rcases List.mem_pair.mp hr with rfl | rfl
      · exact hne rfl
      · exact absurd hpass.atomic (by decide)
  · have hnone : ∀ r ∈ welcoming, Entry.readLevel r.pattern = none := by decide
    rw [hnone r hr] at hlevel
    cases hlevel

theorem welcoming_literal_answers : ∃ e,
    (welcomer.reply [] "user" "Hello there!").result = .ok e ∧
      AnsweredBy "random" "hello there" "hello there" e.steps := by
  have hlenient : ({} : Settings).strict = false := rfl
  have hp := Playbook.ofScript_of_lenient hlenient 50 (single welcoming)
  have hplain : Plain (single welcoming) "random" { rules := welcoming } :=
    ⟨rfl, by decide, rfl, by decide, by decide⟩
  have hliteral : IsLiteral "hello there" := by decide
  have huser : (welcomer.roster.var? "user" "topic").getD Topic.default = "random" := rfl
  have hb : welcomer.playbook = some (Playbook.build {} 50 (single welcoming)) := rfl
  have hanswered :=
    (literal_answers hp hplain hliteral (by decide) hb huser).undisturbed welcoming_no_rival []
      "Hello there!" (by decide +kernel)
  obtain ⟨e, he⟩ := hanswered.given rfl rfl
  exact ⟨e, he, hanswered.reply e he⟩

/-- A user whose message is the text of a literal trigger is answered by another one. -/
structure Overtaken (rules : List Rule) (t q : Text) : Prop where
  plain : Plain (single rules) "random" { rules }
  trigger : IsLiteral t ∧ ∃ r ∈ rules, r.pattern = t
  message : (Playbook.build {} 50 (single rules)).canon.format false t = t
  ne : q ≠ t
  answer : ∃ e,
    (Bot.reply { playbook := some (Playbook.build {} 50 (single rules)) } [] "user" t).result =
      .ok e ∧ AnsweredBy "random" t q e.steps

/-- Rules that are written in the order in which they are tried. -/
theorem ranked_single {rules : List Rule} (hprevious : ∀ r ∈ rules, r.previous = none)
    (hsorted : (rules.map fun r => Entry.ofText r.pattern).Pairwise fun a b =>
      (Entry.order a b).isLE) :
    (Playbook.build {} 50 (single rules)).ranked =
      ⟨[("random", rules.map fun r => (Entry.ofText r.pattern).pattern)]⟩ := by
  have hpool : (single rules).topics.pool 50 "random" = rules.map Rule.pattern := by
    show (rules.filter (·.previous.isNone)).map Rule.pattern = _
    rw [List.filter_eq_self.mpr fun r hr => by rw [hprevious r hr]; rfl]
  have hranked : Entry.ranked ((single rules).topics.pool 50 "random") =
      rules.map fun r => (Entry.ofText r.pattern).pattern := by
    have harranged : Entry.arranged ((rules.map Rule.pattern).map Entry.ofText) =
        rules.map fun r => Entry.ofText r.pattern := by
      rw [List.map_map]
      exact List.mergeSort_of_pairwise hsorted
    rw [hpool, Entry.ranked_eq, harranged, List.map_map]
    rfl
  show (⟨[("random", Entry.ranked ((single rules).topics.pool 50 "random"))]⟩ :
    Table (List Text)) = _
  rw [hranked]

theorem Overtaken.of_sorted {rules : List Rule} {t q : Text}
    (hplain : ∀ r ∈ rules, r.previous = none ∧ Weight.first? r.pattern = none)
    (hsorted : (rules.map fun r => Entry.ofText r.pattern).Pairwise fun a b =>
      (Entry.order a b).isLE)
    (trigger : IsLiteral t ∧ ∃ r ∈ rules, r.pattern = t)
    (message : (Playbook.build {} 50 (single rules)).canon.format false t = t) (ne : q ≠ t)
    (hreply : (Bot.reply
      { playbook := some
          { Playbook.build {} 50 (single rules) with
            ranked := ⟨[("random", rules.map fun r => (Entry.ofText r.pattern).pattern)]⟩ } }
      [] "user" t).result.toOption.map (fun e => e.steps.map fun s => (s.topic, s.message, s.matched)) =
        some [(("random" : Text), t, some q)]) : Overtaken rules t q where
  plain := ⟨rfl, by decide, rfl, fun r hr => (hplain r hr).1, fun r hr => (hplain r hr).2⟩
  trigger := trigger
  message := message
  ne := ne
  answer := by
    rw [← ranked_single (fun r hr => (hplain r hr).1) hsorted] at hreply
    obtain ⟨e, he, hsteps⟩ := Option.map_eq_some_iff.mp hreply
    obtain ⟨step, rest, hcons, hstep, -⟩ := List.map_eq_cons_iff.mp hsteps
    simp only [Prod.mk.injEq] at hstep
    refine ⟨e, Answering.ok_of_toOption he, step, ?_, hstep⟩
    rw [hcons, List.head?_cons]

/-- A choice of words counts as all of them, white space as part of a longer text, and a level that
is written by hand as one that is reached. -/
theorem literals_overtaken :
    Overtaken [{ pattern := "(hello|hi) there", replies := ["Choice."] },
      { pattern := "hello there", replies := ["Literal."] }] "hello there" "(hello|hi) there" ∧
    Overtaken [{ pattern := "hello  there", replies := ["Spaced."] },
      { pattern := "hello there", replies := ["Literal."] }] "hello there" "hello  there" ∧
    Overtaken [{ pattern := "\x7binherits=0\x7d*", replies := ["Marked."] },
      { pattern := "hello", replies := ["Literal."] }, { pattern := "*", replies := ["Any."] }]
      "hello" "*" := by
  refine ⟨?_, ?_, ?_⟩ <;>
  · apply Overtaken.of_sorted
    · decide
    · decide +kernel
    · decide
    · decide +kernel
    · decide
    · decide +kernel

end Dialogue
