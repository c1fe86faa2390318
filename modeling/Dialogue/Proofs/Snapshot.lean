import Dialogue.Proofs.Choice
import Dialogue.Proofs.LoadOrder
import Dialogue.Proofs.Lookback
import Dialogue.Proofs.Place
import Dialogue.Proofs.Reply

/-! Whatever a playbook names is there. Its entries and its index are made of the rules of the
script, so no position that a match carries can be out of range, in no step of no reply. A script
has each topic once, whatever is loaded (`Script.nodup_merge`). -/
namespace Dialogue

namespace Playbook

/-- A topic without rules that look back has no index. -/
def index? (t : Topic) : Option (List Lookback) :=
  if Lookback.index t = [] then none else some (Lookback.index t)

theorem find?_lookbacks {s : Script} (hs : s.topics.keys.Nodup) (settings : Settings)
    (depth : Nat) (name : Text) :
    (build settings depth s).lookbacks.find? name = (s.topics.find? name).bind index? := by
  have hentries : (build settings depth s).lookbacks.entries =
      (Table.entries s.topics).filterMap fun e => (index? e.2).map fun found => (e.1, found) := by
    refine List.filterMap_congr fun e _ => ?_
    obtain ⟨key, t⟩ := e
    cases hi : Lookback.index t <;> simp [index?, hi]
  rw [Table.find?, hentries]
  exact Table.lookup_filterMap index? hs name

theorem index?_eq_some {t : Topic} {found : List Lookback} :
    index? t = some found ↔ found = Lookback.index t ∧ ∃ r ∈ t.rules, r.previous.isSome := by
  have hnil : Lookback.index t = [] ↔ ¬ ∃ r ∈ t.rules, r.previous.isSome := by
    rw [Lookback.index_eq_nil]
    simp
  rw [index?]
  split
  · rename_i h
    exact ⟨(nomatch ·), fun hr => absurd hr.2 (hnil.mp h)⟩
  · rename_i h
    rw [Option.some.injEq]
    exact ⟨fun heq => ⟨heq.symm, not_not.mp (hnil.not.mp h)⟩, fun heq => heq.1.symm⟩

end Playbook

namespace Selection

variable {p : Playbook} {s : Surroundings} {strict : Bool} {topic message : Text}

theorem firstFollower_some {rules : List Rule} {botStars : List Text} {tried n : Nat}
    {positions : List Nat} {m : Match}
    (h : firstFollower s strict topic message rules botStars tried positions = .ok (some m, n)) :
    m.topic = topic ∧ m.viaPrevious = true ∧
      tryPattern s strict m.rule.pattern message = .ok (some m.stars) ∧
        ∃ position ∈ positions, rules[position]? = some m.rule := by
  induction positions generalizing tried with
  | nil => cases h
  | cons position rest ih =>
    have hrest : ∀ {tried}, firstFollower s strict topic message rules botStars tried rest =
        .ok (some m, n) → m.topic = topic ∧ m.viaPrevious = true ∧
          tryPattern s strict m.rule.pattern message = .ok (some m.stars) ∧
            ∃ i ∈ position :: rest, rules[i]? = some m.rule := by
      intro tried h
      obtain ⟨ht, hv, hfits, i, hi, hr⟩ := ih h
      exact ⟨ht, hv, hfits, i, List.mem_cons_of_mem _ hi, hr⟩
    rw [firstFollower] at h
    split at h
    · exact hrest h
    · rename_i rule hr
      obtain ⟨stars, hfits, h⟩ := Answering.ok_of_bind h
      cases stars with
      | none => exact hrest h
      | some stars =>
        cases h
        exact ⟨rfl, rfl, hfits, position, List.mem_cons_self, hr⟩

theorem firstLookback_some {lastReply : Text} {tried n : Nat} {lookbacks : List (Text × Lookback)}
    {m : Match}
    (h : firstLookback p s strict lastReply message tried lookbacks = .ok (some m, n)) :
    m.viaPrevious = true ∧ tryPattern s strict m.rule.pattern message = .ok (some m.stars) ∧
      ∃ l, (m.topic, l) ∈ lookbacks ∧ ∃ position ∈ l.positions,
        (((p.topics.find? m.topic).map (·.rules)).getD [])[position]? = some m.rule := by
  induction lookbacks generalizing tried with
  | nil => cases h
  | cons first rest ih =>
    obtain ⟨name, first⟩ := first
    have hrest : ∀ {tried}, firstLookback p s strict lastReply message tried rest =
        .ok (some m, n) → m.viaPrevious = true ∧
          tryPattern s strict m.rule.pattern message = .ok (some m.stars) ∧
            ∃ l, (m.topic, l) ∈ (name, first) :: rest ∧ ∃ position ∈ l.positions,
              (((p.topics.find? m.topic).map (·.rules)).getD [])[position]? = some m.rule := by
      intro tried h
      obtain ⟨hv, hfits, l, hl, hr⟩ := ih h
      exact ⟨hv, hfits, l, List.mem_cons_of_mem _ hl, hr⟩
    rw [firstLookback] at h
    obtain ⟨botStars, -, h⟩ := Answering.ok_of_bind h
    cases botStars with
    | none => exact hrest h
    | some botStars =>
      obtain ⟨⟨found, n'⟩, hf, h⟩ := Answering.ok_of_bind h
      cases found with
      | none => exact hrest h
      | some found =>
        cases h
        obtain ⟨htopic, hv, hfits, position, hi, hr⟩ := firstFollower_some hf
        rw [htopic]
        exact ⟨hv, hfits, first, List.mem_cons_self, position, hi, hr⟩

end Selection

/-- Where a rule that looks back is indexed, it stands. -/
def Playbook.InRange (p : Playbook) : Prop :=
  ∀ name found l position, p.lookbacks.find? name = some found → l ∈ found →
    position ∈ l.positions → ∃ r, p.topics.rule? name position = some r ∧ r.previous = some l.pattern

/-- The rule of a match stands where its topic says, with the pattern that was tried. -/
structure Match.Named (p : Playbook) (m : Match) (position : Nat) : Prop where
  rule : p.topics.rule? m.topic position = some m.rule
  previous : m.viaPrevious = m.rule.previous.isSome

namespace Selection

variable {b : Bot} {p : Playbook} {user topic message : Text} {m : Match} {n : Nat}

theorem named_of_matchTrigger (h : matchTrigger b p user topic message = .ok (some m, n)) :
    ∃ patterns position, p.ranked.find? topic = some patterns ∧ m.rule.pattern ∈ patterns ∧
      p.topics.owner? p.depth topic m.rule.pattern = some (m.topic, position) ∧
      m.Named p position ∧ m.viaPrevious = false := by
  rw [matchTrigger] at h
  cases hp : p.ranked.find? topic with
  | none =>
    rw [hp] at h
    cases h
  | some patterns =>
    rw [hp] at h
    rcases firstTrigger_ok h with ⟨hnone, -⟩ | ⟨before, pattern, after, m', hs, hm, ha, -⟩
    · cases hnone
    · cases hm
      obtain ⟨position, ho, hr⟩ := ha.owner
      obtain ⟨hprev, hvia⟩ := ha.not_previous
      refine ⟨patterns, position, rfl, ?_, ha.pattern_eq ▸ ho, ⟨hr, by rw [hprev, hvia]; rfl⟩, hvia⟩
      have hsplit : patterns = before ++ pattern :: after := hs
      rw [ha.pattern_eq, hsplit]
      exact List.mem_append_right _ List.mem_cons_self

theorem named_of_matchPrevious (hp : p.InRange)
    (h : matchPrevious b p user topic message = .ok (some m, n)) :
    ∃ found l position, p.lookbacks.find? m.topic = some found ∧ l ∈ found ∧
      position ∈ l.positions ∧ m.rule.previous = some l.pattern ∧ m.Named p position ∧
      m.viaPrevious = true := by
  rw [matchPrevious] at h
  split at h
  · cases h
  · obtain ⟨hvia, -, l, hl, position, hi, hr⟩ := firstLookback_some h
    obtain ⟨name, -, hl⟩ := List.mem_flatMap.mp hl
    obtain ⟨l', hl', heq⟩ := List.mem_map.mp hl
    cases heq
    cases hf : p.lookbacks.find? m.topic with
    | none =>
      rw [hf] at hl'
      cases hl'
    | some found =>
      rw [hf] at hl'
      obtain ⟨r, hrule, hprev⟩ := hp _ _ _ _ hf hl' hi
      have hsame : r = m.rule := by
        obtain ⟨t, ht, hrt⟩ := Option.bind_eq_some_iff.mp hrule
        rw [ht] at hr
        exact Option.some.inj (hrt.symm.trans hr)
      rw [hsame] at hrule hprev
      refine ⟨found, l, position, rfl, hl', hi, hprev, ⟨hrule, ?_⟩, hvia⟩
      rw [hvia, hprev]
      rfl

theorem named_of_selected {a : Asking} (hp : a.playbook.InRange) (h : Selected a m) :
    ∃ position, m.Named a.playbook position := by
  obtain ⟨b, topic, message, n, h | h⟩ := h
  · obtain ⟨-, -, position, -, -, -, -, hn, -⟩ := named_of_matchPrevious hp h
    exact ⟨position, hn⟩
  · obtain ⟨-, position, -, -, -, hn, -⟩ := named_of_matchTrigger h
    exact ⟨position, hn⟩

end Selection

/-! ### Replies -/

/-- What a step puts on record is a rule that is there. -/
def Backed (p : Playbook) (step : Step) : Prop :=
  ∀ pattern, step.matched = some pattern → ∃ topic position r,
    p.topics.rule? topic position = some r ∧ r.pattern = pattern ∧
      step.viaPrevious = r.previous.isSome

def AllBacked (p : Playbook) (steps : List Step) : Prop := ∀ step ∈ steps, Backed p step

theorem AllBacked.modify {p : Playbook} {steps : List Step} (h : AllBacked p steps)
    (position : Nat) {f : Step → Step} (hf : ∀ step, Backed p step → Backed p (f step)) :
    AllBacked p (steps.modify position f) := by
  induction steps generalizing position with
  | nil => cases position <;> exact h
  | cons first steps ih =>
    have hfirst := h first List.mem_cons_self
    have hrest : AllBacked p steps := fun step hs => h step (List.mem_cons_of_mem _ hs)
    cases position with
    | zero =>
      rw [List.modify_zero_cons]
      exact List.forall_mem_cons.mpr ⟨hf first hfirst, hrest⟩
    | succ position =>
      rw [List.modify_succ_cons]
      exact List.forall_mem_cons.mpr ⟨hfirst, ih hrest position⟩

/-- Only matches are put on record, and they name rules that are there. -/
theorem admitsRun_backed {a : Asking} (hp : a.playbook.InRange) : AdmitsRun a fun _ _ p q =>
    AllBacked a.playbook p.steps → AllBacked a.playbook q.steps where
  step _ _ :=
    { refl := fun _ h => h
      trans := fun hpq hqr h => hqr (hpq h)
      draw := fun _ _ h => h
      setVar := fun _ _ _ h => h
      setBotVar := fun _ _ _ h => h
      setGlobal := fun _ _ _ h => h
      hotLoad := fun _ _ h => h
      setLastMatch := fun _ _ h => h
      countTried := fun _ _ h => h.modify _ fun _ hs => hs
      record := fun _ found hfound h => h.modify _ fun step _ => by
        obtain ⟨position, hn⟩ := Selection.named_of_selected hp hfound
        intro pattern hpattern
        exact ⟨found.topic, position, found.rule, hn.rule, Option.some.inj hpattern, hn.previous⟩ }
  openStep := by
    intro _ _ p q s _ hm _ h hp
    refine h fun step hs => ?_
    rcases List.mem_append.mp hs with hs | hs
    · exact hp step hs
    · rw [List.mem_singleton.mp hs]
      intro pattern hpattern
      rw [hm] at hpattern
      cases hpattern
  lower h := h

/-- The playbook holds all of the script and refers to nothing that is not there. -/
structure Playbook.Intact (s : Script) (depth : Nat) (p : Playbook) : Prop where
  made : p.topics = s.topics ∧ p.depth = depth
  keys : p.ranked.keys = s.topics.keys
  ranked : ∀ name t, s.topics.find? name = some t → ∃ patterns,
    p.ranked.find? name = some patterns ∧ s.topics.OnePerPlace depth name patterns
  lookbacks : ∀ name, p.lookbacks.has name = true ↔
    ∃ t, s.topics.find? name = some t ∧ ∃ r ∈ t.rules, r.previous.isSome
  index : ∀ name found, p.lookbacks.find? name = some found → ∃ t,
    s.topics.find? name = some t ∧ Lookback.Indexes t.rules found ∧
      (found.map Lookback.pattern).Nodup ∧ (∀ l ∈ found, l.positions ≠ []) ∧
      ∀ position pattern, Lookback.At t.rules position pattern →
        ∃! l, l ∈ found ∧ position ∈ l.positions
  inRange : p.InRange
  owners : ∀ name pattern owner position,
    p.topics.owner? p.depth name pattern = some (owner, position) → ∃ r,
      p.topics.rule? owner position = some r ∧ r.previous = none ∧ r.pattern = pattern
  /-- A match by a trigger is that of a ranked pattern with its owner. -/
  trigger : ∀ (b : Bot) user topic message m n,
    Selection.matchTrigger b p user topic message = .ok (some m, n) → ∃ patterns position,
      p.ranked.find? topic = some patterns ∧ m.rule.pattern ∈ patterns ∧
        p.topics.owner? p.depth topic m.rule.pattern = some (m.topic, position) ∧
        m.Named p position ∧ m.viaPrevious = false
  /-- A match that follows on the bot's last reply is that of an indexed position. -/
  previous : ∀ (b : Bot) user topic message m n,
    Selection.matchPrevious b p user topic message = .ok (some m, n) → ∃ found l position,
      p.lookbacks.find? m.topic = some found ∧ l ∈ found ∧ position ∈ l.positions ∧
        m.rule.previous = some l.pattern ∧ m.Named p position ∧ m.viaPrevious = true
  /-- Whatever else happens in a run, and even if it ends in a fault. -/
  run : ∀ user message q, AllBacked p q.steps →
    AllBacked p ((Answer.answer ⟨user, p⟩ message).run.run q).2.steps
  record : ∀ (b : Bot) draws user message e, b.playbook = some p →
    (b.reply draws user message).result = .ok e → AllBacked p e.steps

namespace Playbook

variable {s : Script} {settings : Settings} {depth : Nat}

theorem inRange_build (hs : s.topics.keys.Nodup) : (build settings depth s).InRange := by
  intro name found l position hf hl hi
  rw [find?_lookbacks hs] at hf
  obtain ⟨t, ht, hf⟩ := Option.bind_eq_some_iff.mp hf
  obtain ⟨rfl, -⟩ := index?_eq_some.mp hf
  obtain ⟨r, hr, hprev⟩ := ((Lookback.indexes_index t).mem_positions l hl position).mp hi
  refine ⟨r, ?_, hprev⟩
  show (s.topics.find? name).bind _ = some r
  rw [ht]
  exact hr

theorem allBacked_answer {p : Playbook} (hp : p.InRange) (user message : Text) (q : Process)
    (hq : AllBacked p q.steps) :
    AllBacked p ((Answer.answer ⟨user, p⟩ message).run.run q).2.steps :=
  Answer.moves_answer (a := ⟨user, p⟩) (admitsRun_backed hp) message q hq

theorem allBacked_reply {p : Playbook} (hp : p.InRange) {b : Bot} (hb : b.playbook = some p)
    {draws : List Nat} {user message : Text} {e : Exchange}
    (h : (b.reply draws user message).result = .ok e) : AllBacked p e.steps := by
  obtain ⟨reply, q, hrun, rfl⟩ := Bot.answered_of_ok hb h
  have hq := allBacked_answer hp user (p.canon.format false message)
    { bot := b.onRoster (·.welcome user), draws } fun _ hs => nomatch hs
  rw [Bot.answered] at hrun
  rw [hrun] at hq
  exact hq

theorem intact (hs : s.topics.keys.Nodup) {p : Playbook}
    (hp : ofScript settings depth s = .ok p) : Intact s depth p := by
  obtain rfl := eq_build hp
  have hrange : (build settings depth s).InRange := inRange_build hs
  refine
    { made := ⟨rfl, rfl⟩
      keys := keys_ranked settings depth s
      ranked := fun name t ht => ?_
      lookbacks := fun name => ?_
      index := fun name found hf => ?_
      inRange := hrange
      owners := fun _ _ _ _ h => Topics.rule?_of_owner? h
      trigger := fun _ _ _ _ _ _ h => Selection.named_of_matchTrigger h
      previous := fun _ _ _ _ _ _ h => Selection.named_of_matchPrevious hrange h
      run := allBacked_answer hrange
      record := fun _ _ _ _ _ hb h => allBacked_reply hrange hb h }
  · refine ⟨_, ?_, Topics.onePerPlace_ranked s.topics depth name⟩
    rw [find?_ranked, ht]
    rfl
  · rw [Table.has, find?_lookbacks hs, Option.isSome_iff_exists]
    constructor
    · rintro ⟨found, hf⟩
      obtain ⟨t, ht, hf⟩ := Option.bind_eq_some_iff.mp hf
      exact ⟨t, ht, (index?_eq_some.mp hf).2⟩
    · rintro ⟨t, ht, hr⟩
      rw [ht]
      exact ⟨_, index?_eq_some.mpr ⟨rfl, hr⟩⟩
  · rw [find?_lookbacks hs] at hf
    obtain ⟨t, ht, hf⟩ := Option.bind_eq_some_iff.mp hf
    obtain ⟨rfl, -⟩ := index?_eq_some.mp hf
    have hindex := Lookback.indexes_index t
    exact ⟨t, ht, hindex, hindex.nodup, fun l hl => hindex.positions_ne_nil hl,
      fun _ _ hat => hindex.existsUnique hat⟩

/-- Two rules that look back with the same pattern, and one that does not look back. -/
def knocking : Script :=
  { topics := ⟨[("random", { rules := [
      { pattern := "knock knock", replies := ["Who is there?"] },
      { pattern := "nobody", previous := some "who is there" },
      { pattern := "*", replies := ["<star> who?"], previous := some "who is there" }] })]⟩ }

def asked : Bot :=
  { playbook := some (build {} 50 knocking)
    roster := ({} : Roster).record "user" "knock knock" "Who is there?" }

def orangeMatch : Match where
  topic := "random"
  rule := { pattern := "*", replies := ["<star> who?"], previous := some "who is there" }
  viaPrevious := true
  stars := ["orange"]

theorem knocking_intact :
    (build {} 50 knocking).lookbacks.find? "random" = some [⟨"who is there", [1, 2]⟩] ∧
    Selection.matchPrevious asked (build {} 50 knocking) "user" "random" "orange" =
      .ok (some orangeMatch, 3) ∧ orangeMatch.Named (build {} 50 knocking) 2 := by
  have hlenient : ({} : Settings).strict = false := rfl
  have hp := ofScript_of_lenient hlenient 50 knocking
  have hm : Selection.matchPrevious asked (build {} 50 knocking) "user" "random" "orange" =
      .ok (some orangeMatch, 3) := Answering.ok_of_toOption (by decide +kernel)
  have hindex : (build {} 50 knocking).lookbacks.find? "random" =
      some [⟨"who is there", [1, 2]⟩] := rfl
  refine ⟨hindex, hm, ?_⟩
  obtain ⟨found, l, position, hf, hl, hi, -, hn, -⟩ :=
    (intact (by decide) hp).previous _ _ _ _ _ _ hm
  obtain rfl := Option.some.inj (hindex.symm.trans hf)
  obtain rfl := List.mem_singleton.mp hl
  rcases List.mem_pair.mp hi with rfl | rfl
  · exact absurd hn.rule (by decide)
  · exact hn

end Playbook

end Dialogue
