import Dialogue.Proofs.Life
import Dialogue.Proofs.Nesting
import Dialogue.Proofs.Snapshot
import Dialogue.Proofs.Source
import Dialogue.Proofs.Trial

/-! What a strict bot has sorted never turns out to be malformed. The check reads a pattern on its
own, but surroundings only ever fill in the parts of what it read, so it fares the same in all of
them, and a reply tries nothing but patterns that were checked. -/
namespace Dialogue

/-- An expression is well formed and yet refused: it is too deep or too large for the engine. -/
def Refusal.IsLimit (engine : Engine) (cause : Refusal) : Prop :=
  ∃ e l, engine.refusal? e = some l ∧ cause = .limit l

theorem Refusal.not_isLimit_malformed (engine : Engine) (cause : Malformed) :
    ¬ (malformed cause).IsLimit engine := by
  rintro ⟨e, l, -, h⟩
  cases h

theorem Pattern.items_of_check {pattern : Text} (h : check pattern = .ok ()) :
    ∃ is, items (Weight.strip pattern) = .ok is := by
  obtain ⟨is, his, -⟩ := Answering.ok_of_map h
  exact ⟨is, his⟩

namespace Matcher

variable {s : Surroundings} {strict : Bool} {pattern body : Text} {is : List Item} {cause : Refusal}

theorem isLimit_of_ofSigns (hi : Pattern.items body = .ok is) (h : ofSigns s body = .error cause) :
    cause.IsLimit s.engine := by
  rw [ofSigns, hi, Except.mapError] at h
  dsimp only [bind, Except.bind] at h
  split at h
  · rename_i l hrefusal
    cases h
    exact ⟨_, l, hrefusal, rfl⟩
  · cases h

/-- What passes the check is refused only where its surroundings make too much of it. -/
theorem isLimit_of_check (hcheck : Pattern.check pattern = .ok ())
    (h : ofPattern s strict pattern = .error cause) : cause.IsLimit s.engine := by
  obtain ⟨is, hi⟩ := Pattern.items_of_check hcheck
  rw [ofPattern] at h
  split at h
  · cases h
  split at h
  · cases h
  split at h
  · cases h
  · rename_i hsigns
    split at h
    · cases h
      exact isLimit_of_ofSigns hi hsigns
    · cases h

end Matcher

/-! ### Playbooks -/

/-- Whatever replies try passes the check. -/
def Playbook.Sound (p : Playbook) : Prop := ∀ pattern, p.Tries pattern → Pattern.check pattern = .ok ()

/-- If a pattern is what went wrong, it went beyond a limit of the engine. -/
def Fault.OnlyLimits (engine : Engine) (fault : Fault) : Prop :=
  ∀ pattern cause, fault = .pattern pattern cause → cause.IsLimit engine

theorem Selection.within_tryPattern {pattern : Text} (h : Pattern.check pattern = .ok ())
    (s : Surroundings) (strict : Bool) (message : Text) :
    Within (Fault.OnlyLimits s.engine) (tryPattern s strict pattern message) := by
  intro fault hfault other cause hpattern
  rw [tryPattern] at hfault
  split at hfault
  · cases hfault
  · rename_i hcause
    cases hfault
    cases hpattern
    exact Matcher.isLimit_of_check h hcause

namespace Playbook

theorem checkPattern_eq_ok {pattern : Text} :
    checkRules.checkPattern pattern = .ok () ↔ Pattern.check pattern = .ok () := by
  rw [checkRules.checkPattern]
  cases Pattern.check pattern with
  | error cause => exact ⟨(nomatch ·), (nomatch ·)⟩
  | ok _ => exact ⟨fun _ => rfl, fun _ => rfl⟩

theorem WellFormed.pattern {r : Rule} (h : WellFormed r) : Pattern.check r.pattern = .ok () :=
  checkPattern_eq_ok.mp h.1

theorem WellFormed.previous {r : Rule} (h : WellFormed r) {pattern : Text}
    (hp : r.previous = some pattern) : Pattern.check pattern = .ok () :=
  checkPattern_eq_ok.mp (h.2 pattern hp)

/-- Ranking takes away a mark, but what is left of a pattern is as well formed as it was. -/
theorem check_entryOf {topics : Topics} {name : Text} {o : Origin} (h : WellFormed o.rule) :
    Pattern.check (topics.entryOf name o).pattern = .ok () := by
  rw [Topics.entryOf, Topics.mark]
  split
  · rw [Entry.pattern_levelMark]
    exact h.pattern
  · rw [Pattern.check_ofText]
    exact h.pattern

variable {settings : Settings} {depth : Nat} {s : Script}

theorem sound_build (hs : s.topics.keys.Nodup) (h : checkPatterns s.topics = .ok ()) :
    (build settings depth s).Sound := by
  rw [checkPatterns_eq_ok] at h
  intro pattern htries
  cases htries with
  | @ranked topic patterns _ hr hpattern =>
    rw [find?_ranked] at hr
    obtain ⟨t, ht, rfl⟩ := Option.map_eq_some_iff.mp hr
    rw [Topics.ranked_pool_eq] at hpattern
    obtain ⟨o, ho, rfl⟩ := List.mem_map.mp hpattern
    obtain ⟨-, last, t', -, ht', hrule, -⟩ := Topics.mem_origins.mp (Topics.mem_ranking.mp ho)
    exact check_entryOf (h last t' ht' o.rule (List.mem_of_getElem? hrule))
  | @lookback topic found l hf hl =>
    rw [find?_lookbacks hs] at hf
    obtain ⟨t, ht, hf⟩ := Option.bind_eq_some_iff.mp hf
    obtain ⟨rfl, -⟩ := index?_eq_some.mp hf
    have hindex := Lookback.indexes_index t
    obtain ⟨position, hi⟩ := List.exists_mem_of_ne_nil _ (hindex.positions_ne_nil hl)
    obtain ⟨r, hr, hprev⟩ := (hindex.mem_positions l hl position).mp hi
    exact (h topic t ht r (List.mem_of_getElem? hr)).previous hprev
  | @follower topic found l position r hf hl hi hr =>
    obtain ⟨t, ht, hr⟩ := Option.bind_eq_some_iff.mp hr
    exact (h topic t ht r (List.mem_of_getElem? hr)).pattern

/-- What a strict bot makes of a script. -/
theorem sound_of_ofScript (hs : s.topics.keys.Nodup) (hstrict : settings.strict = true)
    {p : Playbook} (h : ofScript settings depth s = .ok p) : p.Sound := by
  rw [eq_build h]
  exact sound_build hs (checkPatterns_of_ofScript hstrict h)

end Playbook

/-! ### Bots -/

namespace Bot

/-- A strict bot and what it has sorted. -/
structure Checked (b : Bot) : Prop where
  strict : b.settings.strict = true
  nodup : b.script.topics.keys.Nodup
  sound : ∀ p ∈ b.playbook, p.Sound

theorem Change.checked {b c : Bot} (h : b.Change c) (hb : b.Checked) : c.Checked := by
  cases h with
  | absorb doc => exact ⟨hb.strict, Script.nodup_merge hb.nodup doc, hb.sound⟩
  | sort hsort =>
    obtain ⟨p, hp, rfl⟩ := Answering.ok_of_map hsort
    refine ⟨hb.strict, hb.nodup, fun q hq => ?_⟩
    cases hq
    exact Playbook.sound_of_ofScript hb.nodup hb.strict hp
  | setVar | setGlobal | setSubstitution | setPerson | onRoster | onCallables =>
    exact ⟨hb.strict, hb.nodup, hb.sound⟩

theorem Checked.later {b c : Bot} (hb : b.Checked) (h : b.Later c) : c.Checked :=
  h.keeps Change.checked hb

theorem Checked.within_reply {b : Bot} (hb : b.Checked) (draws : List Nat) (user message : Text) :
    Within (Fault.OnlyLimits b.settings.engine) (b.reply draws user message).result := by
  refine Bot.within_reply (fun _ _ _ _ h => nomatch h) (fun p hp pattern htries c hlater message => ?_)
    draws message
  have hengine : (Selection.surroundings c p user).engine = b.settings.engine :=
    congrArg Settings.engine hlater.settings
  rw [← hengine]
  exact Selection.within_tryPattern (hb.sound p hp pattern htries) _ _ _

/-- The bot has loaded nothing yet. Anything may have been set. -/
structure IsNew (b : Bot) : Prop where
  script : b.script = {}
  playbook : b.playbook = none

theorem IsNew.checked {b : Bot} (hb : b.IsNew) (hstrict : b.settings.strict = true) : b.Checked where
  strict := hstrict
  nodup := by
    rw [hb.script]
    exact List.nodup_nil
  sound p hp := by
    rw [hb.playbook] at hp
    cases hp

/-- Surroundings make no difference to whether a pattern is malformed, what it is written as is
well formed in all of them, and what passes the check is never malformed. So a strict bot, whatever
becomes of it, never meets a malformed pattern in a reply. -/
theorem strict_reply_never_malformed :
    (∀ s t body cause, Pattern.source s body = .error cause ↔ Pattern.source t body = .error cause) ∧
    (∀ s body written, Pattern.source s body = .ok written → Grammar.Whole written) ∧
    (∀ pattern, Pattern.check pattern = .ok () → ∀ s cause,
      Matcher.ofPattern s true pattern = .error cause →
        cause.IsLimit s.engine ∧ ∀ m, cause ≠ .malformed m) ∧
    ∀ b c : Bot, b.IsNew → b.settings.strict = true → b.Later c → ∀ draws user message,
      b.Later (c.reply draws user message).bot ∧
        ∀ pattern cause, (c.reply draws user message).result = .error (.pattern pattern cause) →
          cause.IsLimit b.settings.engine ∧ ∀ m, cause ≠ .malformed m := by
  have hne : ∀ (engine : Engine) (cause : Refusal), cause.IsLimit engine →
      cause.IsLimit engine ∧ ∀ m, cause ≠ .malformed m := by
    intro engine cause hlimit
    refine ⟨hlimit, fun m hm => ?_⟩
    rw [hm] at hlimit
    exact Refusal.not_isLimit_malformed engine m hlimit
  refine ⟨fun s t body cause => ?_, fun s body written => Pattern.whole_of_source,
    fun pattern hcheck s cause h => hne _ cause (Matcher.isLimit_of_check hcheck h), ?_⟩
  · rw [Pattern.source_eq_error, Pattern.source_eq_error]
  · intro b c hb hstrict hlater draws user message
    refine ⟨hlater.trans (later_reply c draws user message), fun pattern cause h => hne _ cause ?_⟩
    have hchecked : c.Checked := (hb.checked hstrict).later hlater
    rw [← hlater.settings]
    exact hchecked.within_reply draws user message _ h pattern cause rfl

/-- A strict bot whose name looks like a part of a pattern. -/
def novice : Bot where
  settings := .basic
  vars := ⟨[("name", "(bo*b")]⟩

def introduction : Text := "[i am] (<bot name>|it){weight=3} *"

/-- Well formed, but with more brackets around a wildcard than can be matched. -/
def buried : Text := List.replicate 250 '(' ++ ['*'] ++ List.replicate 250 ')'

def introducing : Document where
  topics := ⟨[("random", { rules := [{ pattern := introduction, replies := ["Hello."] },
    { pattern := buried, replies := ["Goodbye."], previous := some "hello" }] })]⟩

def introduced : Bot :=
  { novice.absorb introducing with
    playbook := some (.build .basic 50 (novice.absorb introducing).script) }

def greeted : Bot := (introduced.reply [] "user" "I am Bob today!").bot

theorem introduced_never_malformed :
    (∃ written, Pattern.source {} buried = .ok written ∧ Grammar.Whole written) ∧
    (∃ cause, Matcher.ofPattern {} true buried = .error cause ∧ cause.IsLimit .standard) ∧
    (∃ e : Exchange, (introduced.reply [] "user" "I am Bob today!").result = .ok e ∧
      e.reply = "Hello.") ∧
    novice.Later greeted ∧
    ∃ cause, (greeted.reply [] "user" "I am off!").result = .error (.pattern buried cause) ∧
      cause.IsLimit .standard := by
  have hnew : novice.IsNew := ⟨rfl, rfl⟩
  have hcheck : Playbook.checkPatterns (novice.absorb introducing).script.topics = .ok () := by
    decide +kernel
  have hsort : (novice.absorb introducing).sort = .ok introduced := by
    rw [Bot.sort, Playbook.ofScript_of_checkPatterns hcheck]
    rfl
  have hlater : novice.Later introduced :=
    (Change.absorb introducing).later.trans (Change.sort hsort).later
  obtain ⟨-, hwhole, hlimit, hreply⟩ := strict_reply_never_malformed
  have hgreeted := (hreply novice introduced hnew rfl hlater [] "user" "I am Bob today!").1
  refine ⟨?_, ?_, ?_, ?_, ?_⟩
  · have hok : (Pattern.source {} buried).isOk := by
      decide +kernel
    cases hs : Pattern.source {} buried with
    | error cause =>
      rw [hs] at hok
      cases hok
    | ok written => exact ⟨written, rfl, hwhole {} buried written hs⟩
  · have hrefused : (Matcher.ofPattern {} true buried).isOk = false := by
      decide +kernel
    cases hm : Matcher.ofPattern {} true buried with
    | ok m =>
      rw [hm] at hrefused
      cases hrefused
    | error cause =>
      have hcause := hlimit buried (by decide +kernel) {} cause hm
      exact ⟨cause, rfl, hcause.1⟩
  · have hresult : ((introduced.reply [] "user" "I am Bob today!").result.toOption.map
        Exchange.reply) = some ("Hello." : Text) := by
      decide +kernel
    obtain ⟨e, he, htext⟩ := Option.map_eq_some_iff.mp hresult
    exact ⟨e, Answering.ok_of_toOption he, htext⟩
  · exact hgreeted
  · have hpattern : (match (greeted.reply [] "user" "I am off!").result with
        | .error (.pattern pattern _) => some pattern
        | _ => none) = some buried := by
      decide +kernel
    split at hpattern
    · rename_i cause hresult
      cases hpattern
      have hcause := (hreply novice greeted hnew rfl hgreeted [] "user" "I am off!").2 _ cause hresult
      exact ⟨cause, hresult, hcause.1⟩
    · cases hpattern

end Bot

end Dialogue
