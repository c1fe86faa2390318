import Dialogue.Proofs.Record
import Dialogue.Proofs.Trails

/-! Rules that follow on the bot's last reply. They are tried in the order of the walks that lead to
them, then of the patterns with which they look back, then of their positions, and the first one
that fits answers. -/
namespace Dialogue

/-! ### Searching a list -/

/-- What a search of a list finds: all that stands before it is passed over, or all there is. -/
inductive Finds {α β : Type} (passed : α → Prop) (hit : α → β → Prop) : List α → Option β → Prop where
  | nothing {l : List α} : (∀ a ∈ l, passed a) → Finds passed hit l none
  | something {before after : List α} {a : α} {b : β} : (∀ c ∈ before, passed c) → hit a b →
      Finds passed hit (before ++ a :: after) (some b)

namespace Finds

variable {α β γ : Type} {passed : α → Prop} {hit : α → β → Prop} {l k : List α}

theorem append_passed (hl : ∀ a ∈ l, passed a) {found : Option β} (h : Finds passed hit k found) :
    Finds passed hit (l ++ k) found := by
  cases h with
  | nothing hk => exact .nothing (List.forall_mem_append.mpr ⟨hl, hk⟩)
  | @something before after a b hbefore hhit =>
    rw [← List.append_assoc]
    exact .something (List.forall_mem_append.mpr ⟨hl, hbefore⟩) hhit

theorem cons_passed {a : α} (ha : passed a) {found : Option β} (h : Finds passed hit l found) :
    Finds passed hit (a :: l) found :=
  append_passed (l := [a]) (List.forall_mem_singleton.mpr ha) h

theorem append_found {b : β} (h : Finds passed hit l (some b)) (k : List α) :
    Finds passed hit (l ++ k) (some b) := by
  cases h with
  | @something before after a _ hbefore hhit =>
    rw [List.append_assoc, List.cons_append]
    exact .something hbefore hhit

theorem passed_of_none (h : Finds passed hit l none) : ∀ a ∈ l, passed a := by
  cases h with
  | nothing hl => exact hl

theorem imp_of_mem {passed' : α → Prop} {hit' : α → β → Prop} {found : Option β}
    (h : Finds passed hit l found) (hpassed : ∀ a ∈ l, passed a → passed' a)
    (hhit : ∀ a ∈ l, ∀ b, hit a b → hit' a b) : Finds passed' hit' l found := by
  cases h with
  | nothing hl => exact .nothing fun a ha => hpassed a ha (hl a ha)
  | something hbefore ha =>
    refine .something (fun c hc => hpassed c (List.mem_append_left _ hc) (hbefore c hc)) ?_
    exact hhit _ (List.mem_append_right _ List.mem_cons_self) _ ha

theorem map {passed : γ → Prop} {hit : γ → β → Prop} (f : α → γ) {found : Option β}
    (h : Finds (fun a => passed (f a)) (fun a => hit (f a)) l found) :
    Finds passed hit (l.map f) found := by
  cases h with
  | nothing hl => exact .nothing (List.forall_mem_map.mpr hl)
  | something hbefore hhit =>
    rw [List.map_append, List.map_cons]
    exact .something (List.forall_mem_map.mpr hbefore) hhit

end Finds

/-! ### The search -/

namespace Selection

variable {p : Playbook} {s : Surroundings} {strict : Bool} {topic message : Text}

/-- The rule at a place follows on a reply: it is within reach, it looks back with a pattern that
matches the reply, and its trigger matches the message. What is remembered of both is in the match. -/
structure Follows (p : Playbook) (s : Surroundings) (strict : Bool) (topic lastReply message : Text)
    (place : Place) (m : Match) : Prop where
  reach : place.trail.length ≤ p.depth
  topic : p.topics.follow? topic place.trail = some m.topic
  rule : p.topics.rule? m.topic place.position = some m.rule
  reply : ∃ pattern, m.rule.previous = some pattern ∧
    tryPattern s strict pattern lastReply = .ok (some m.botStars)
  message : tryPattern s strict m.rule.pattern message = .ok (some m.stars)
  viaPrevious : m.viaPrevious = true

/-- No rule that fits stands before it. -/
structure FollowsFirst (p : Playbook) (s : Surroundings) (strict : Bool)
    (topic lastReply message : Text) (place : Place) (m : Match) : Prop where
  follows : Follows p s strict topic lastReply message place m
  first : ∀ other n, p.topics.Precedes topic other place →
    ¬ Follows p s strict topic lastReply message other n

theorem finds_firstFollower {rules : List Rule} {botStars : List Text} {tried n : Nat}
    {positions : List Nat} {found : Option Match}
    (h : firstFollower s strict topic message rules botStars tried positions = .ok (found, n)) :
    Finds (fun i => ∀ r, rules[i]? = some r → tryPattern s strict r.pattern message = .ok none)
      (fun i m => ∃ r stars, rules[i]? = some r ∧
        tryPattern s strict r.pattern message = .ok (some stars) ∧
        m = { topic, rule := r, viaPrevious := true, stars, botStars }) positions found := by
  induction positions generalizing tried with
  | nil =>
    cases h
    exact .nothing fun _ hi => nomatch hi
  | cons i rest ih =>
    rw [firstFollower] at h
    split at h
    · rename_i hnone
      refine (ih h).cons_passed fun r hr => ?_
      rw [hnone] at hr
      cases hr
    · rename_i rule hr
      obtain ⟨stars, hfits, h⟩ := Answering.ok_of_bind h
      cases stars with
      | none =>
        refine (ih h).cons_passed fun r hr' => ?_
        rw [hr, Option.some.injEq] at hr'
        rw [← hr', hfits]
      | some stars =>
        cases h
        show Finds _ _ ([] ++ i :: rest) _
        exact .something (fun _ hi => nomatch hi) ⟨rule, stars, hr, hfits, rfl⟩

/-- Where a rule of a topic within reach stands, and which one it is. -/
theorem Follows.rule_eq {lastReply : Text} {e : Topics.Indexed} {t : Topic} {i : Nat} {m : Match}
    (h : Follows p s strict topic lastReply message ⟨e.trail, i⟩ m)
    (hwithin : e.Within p.topics p.depth topic t) : m.topic = e.last ∧ t.rules[i]? = some m.rule := by
  have htopic := hwithin.follow.symm.trans h.topic
  rw [Option.some.injEq] at htopic
  have hr := h.rule
  rw [← htopic, Topics.rule?, hwithin.find] at hr
  exact ⟨htopic.symm, hr⟩

/-- No rule of a pattern follows on a reply that the pattern does not match. -/
theorem not_follows_of_reply {lastReply : Text} {e : Topics.Indexed} {t : Topic}
    (hwithin : e.Within p.topics p.depth topic t)
    (hreply : tryPattern s strict e.lookback.pattern lastReply = .ok none) {place : Place}
    (hplace : place ∈ e.places) (m : Match) :
    ¬ Follows p s strict topic lastReply message place m := by
  intro hm
  obtain ⟨i, -, rfl⟩ := List.mem_map.mp hplace
  obtain ⟨r, hr, hprevious⟩ := (hwithin.at_iff i).mp hplace
  obtain ⟨-, hr'⟩ := hm.rule_eq hwithin
  obtain ⟨pattern, hpattern, hfits⟩ := hm.reply
  rw [hr, Option.some.injEq] at hr'
  rw [← hr', hprevious, Option.some.injEq] at hpattern
  rw [← hpattern, hreply] at hfits
  cases hfits

/-- Of a pattern that matches the reply the rules are tried. -/
theorem finds_places {lastReply : Text} {e : Topics.Indexed} {t : Topic}
    (hwithin : e.Within p.topics p.depth topic t) {botStars : List Text}
    (hreply : tryPattern s strict e.lookback.pattern lastReply = .ok (some botStars))
    {tried n : Nat} {found : Option Match}
    (h : firstFollower s strict e.last message t.rules botStars tried e.lookback.positions =
      .ok (found, n)) :
    Finds (fun place => ∀ m, ¬ Follows p s strict topic lastReply message place m)
      (Follows p s strict topic lastReply message) e.places found := by
  refine Finds.map (fun i => (⟨e.trail, i⟩ : Place)) ((finds_firstFollower h).imp_of_mem ?_ ?_)
  · intro i hi hpassed m hm
    obtain ⟨-, hr⟩ := hm.rule_eq hwithin
    have hmessage := hm.message
    rw [hpassed _ hr] at hmessage
    cases hmessage
  · rintro i hi _ ⟨r, stars, hr, hfits, rfl⟩
    obtain ⟨r', hr', hprevious⟩ := (hwithin.at_iff i).mp (List.mem_map.mpr ⟨i, hi, rfl⟩)
    rw [hr, Option.some.injEq] at hr'
    refine ⟨hwithin.reach, hwithin.follow, ?_, ⟨_, hr' ▸ hprevious, hreply⟩, hfits, rfl⟩
    rw [Topics.rule?, hwithin.find]
    exact hr

/-- A pattern is passed over with all its rules, or it matches the reply and its rules are tried. -/
theorem finds_firstLookback {lastReply : Text} {tried n : Nat} {es : List Topics.Indexed}
    {found : Option Match} (hes : ∀ e ∈ es, ∃ t, e.Within p.topics p.depth topic t)
    (h : firstLookback p s strict lastReply message tried
      (es.map fun e => (e.last, e.lookback)) = .ok (found, n)) :
    Finds (fun place => ∀ m, ¬ Follows p s strict topic lastReply message place m)
      (Follows p s strict topic lastReply message) (es.flatMap Topics.Indexed.places) found := by
  induction es generalizing tried with
  | nil =>
    cases h
    exact .nothing fun _ hi => nomatch hi
  | cons e es ih =>
    rw [List.forall_mem_cons] at hes
    obtain ⟨⟨t, hwithin⟩, hes⟩ := hes
    rw [List.map_cons, firstLookback] at h
    obtain ⟨botStars, hreply, h⟩ := Answering.ok_of_bind h
    rw [List.flatMap_cons]
    cases botStars with
    | none =>
      apply (ih hes h).append_passed
      intro place hplace
      exact not_follows_of_reply hwithin hreply hplace
    | some botStars =>
      obtain ⟨⟨result, k⟩, hfollower, h⟩ := Answering.ok_of_bind h
      have hrules : ((p.topics.find? e.last).map (·.rules)).getD [] = t.rules := by
        rw [hwithin.find]
        rfl
      rw [hrules] at hfollower
      have hplaces := finds_places hwithin hreply hfollower
      cases result with
      | none => exact (ih hes h).append_passed hplaces.passed_of_none
      | some m =>
        cases h
        exact hplaces.append_found _

theorem Follows.mem_followers {lastReply : Text} {place : Place} {m : Match}
    (h : Follows p s strict topic lastReply message place m) :
    place ∈ p.topics.followers p.depth topic := by
  obtain ⟨pattern, hprevious, -⟩ := h.reply
  refine Topics.mem_followers.mpr ⟨h.reach, m.rule, ?_, by rw [hprevious]; rfl⟩
  rw [Topics.ruleAt?, h.topic]
  exact h.rule

/-- A place has one match at most. -/
theorem Follows.unique {lastReply : Text} {place : Place} {m n : Match}
    (h : Follows p s strict topic lastReply message place m)
    (k : Follows p s strict topic lastReply message place n) : m = n := by
  have htopic := h.topic.symm.trans k.topic
  rw [Option.some.injEq] at htopic
  have hrule := k.rule
  rw [← htopic, h.rule, Option.some.injEq] at hrule
  have hstars := k.message
  rw [← hrule, h.message, Except.ok.injEq, Option.some.injEq] at hstars
  obtain ⟨pattern, hprevious, hreply⟩ := h.reply
  obtain ⟨other, hother, hbot⟩ := k.reply
  rw [← hrule, hprevious, Option.some.injEq] at hother
  rw [← hother, hreply, Except.ok.injEq, Option.some.injEq] at hbot
  have hvia := h.viaPrevious.trans k.viaPrevious.symm
  cases m
  cases n
  simp only [Match.mk.injEq]
  exact ⟨htopic, hrule, hvia, hstars, hbot⟩

/-- Of two places one comes first. -/
theorem FollowsFirst.unique {lastReply : Text} {place other : Place} {m n : Match}
    (h : FollowsFirst p s strict topic lastReply message place m)
    (k : FollowsFirst p s strict topic lastReply message other n) : m = n := by
  by_cases heq : place = other
  · rw [← heq] at k
    exact h.follows.unique k.follows
  · have hsorted := (Topics.pairwise_followers p.topics p.depth topic).imp
      fun {a b} hab => (Or.inl hab : p.topics.Precedes topic a b ∨ p.topics.Precedes topic b a)
    have hsymmetric : Std.Symm fun a b =>
        p.topics.Precedes topic a b ∨ p.topics.Precedes topic b a := ⟨fun _ _ => Or.symm⟩
    rcases hsorted.forall h.follows.mem_followers k.follows.mem_followers heq with
      hbefore | hbefore
    · exact absurd h.follows (k.first place m hbefore)
    · exact absurd k.follows (h.first other n hbefore)

/-- What a search of the places finds is the first one that fits. -/
theorem followsFirst_of_finds {lastReply : Text} {found : Option Match}
    (h : Finds (fun place => ∀ m, ¬ Follows p s strict topic lastReply message place m)
      (Follows p s strict topic lastReply message) (p.topics.followers p.depth topic) found) :
    (∀ m, found = some m ↔ ∃ place, FollowsFirst p s strict topic lastReply message place m) ∧
    (found = none ↔ ∀ place m, ¬ Follows p s strict topic lastReply message place m) := by
  have hsorted := Topics.pairwise_followers p.topics p.depth topic
  generalize hl : p.topics.followers p.depth topic = l at h hsorted
  cases h with
  | nothing hall =>
    have hnone : ∀ place m, ¬ Follows p s strict topic lastReply message place m := by
      intro place m hm
      exact hall place (hl ▸ hm.mem_followers) m hm
    refine ⟨fun m => ⟨(nomatch ·), ?_⟩, fun _ => hnone, fun _ => rfl⟩
    rintro ⟨place, hfirst⟩
    exact absurd hfirst.follows (hnone place m)
  | @something before after place m hbefore hhit =>
    have hfirst : FollowsFirst p s strict topic lastReply message place m := by
      refine ⟨hhit, fun other n hprecedes hother => ?_⟩
      have hmem : other ∈ before ++ place :: after := hl ▸ hother.mem_followers
      rw [List.pairwise_append, List.pairwise_cons] at hsorted
      rcases List.mem_append.mp hmem with hin | hin
      · exact hbefore other hin n hother
      rcases List.mem_cons.mp hin with rfl | hin
      · exact Topics.Precedes.irrefl _ hprecedes
      · exact (hsorted.2.1.1 other hin).asymm hprecedes
    constructor
    · intro n
      constructor
      · intro heq
        rw [← Option.some.inj heq]
        exact ⟨place, hfirst⟩
      · rintro ⟨other, hother⟩
        rw [hfirst.unique hother]
    · exact ⟨(nomatch ·), fun hnone => absurd hhit (hnone place m)⟩

end Selection

/-! ### Playbooks -/

namespace Playbook

open Selection

variable {p : Playbook}

/-- The index holds the rules of each topic that look back. -/
def IndexesAll (p : Playbook) : Prop :=
  ∀ name t, p.topics.find? name = some t → (p.lookbacks.find? name).getD [] = Lookback.index t

theorem indexesAll_of_ofScript {script : Script} (hs : script.topics.keys.Nodup)
    {settings : Settings} {depth : Nat} (hp : ofScript settings depth script = .ok p) :
    p.IndexesAll := by
  obtain rfl := eq_build hp
  intro name t ht
  have hscript : script.topics.find? name = some t := ht
  rw [find?_lookbacks hs, hscript, Option.bind_some, index?]
  split
  · rename_i hnil
    rw [hnil]
    rfl
  · rfl

/-- The search goes through the patterns of the topics in the order of the walks to them. -/
theorem tried_eq_indexed (hp : p.IndexesAll) (topic : Text) :
    ((p.topics.tree p.depth topic).flatMap fun name =>
      ((p.lookbacks.find? name).getD []).map fun l => (name, l)) =
    (p.topics.indexed p.depth topic).map fun e => (e.last, e.lookback) := by
  rw [Topics.tree, Topics.treeFrom_eq, List.flatMap_map, Topics.indexed, List.map_flatMap]
  refine List.flatMap_congr fun t ht => ?_
  obtain ⟨trail, last⟩ := t
  obtain ⟨topic', htopic⟩ := Topics.find?_of_follow? (Topics.mem_trailsFrom.mp ht).2
  rw [hp last topic' htopic, htopic, List.map_map]
  rfl

/-- No rule within reach looks back if no topic of the tree is indexed. -/
theorem followers_eq_nil (hp : p.IndexesAll) {topic : Text}
    (h : p.looksBack (p.topics.tree p.depth topic) = false) :
    p.topics.followers p.depth topic = [] := by
  rw [looksBack, List.any_eq_false] at h
  have hnone : ((p.topics.tree p.depth topic).flatMap fun name =>
      ((p.lookbacks.find? name).getD []).map fun l => (name, l)) = [] := by
    rw [List.flatMap_eq_nil_iff]
    intro name hname
    have habsent := h name hname
    rw [Table.has, Bool.not_eq_true, Option.isSome_eq_false_iff, Option.isNone_iff_eq_none] at habsent
    rw [habsent]
    rfl
  rw [tried_eq_indexed hp, List.map_eq_nil_iff] at hnone
  rw [Topics.followers, hnone]
  rfl

/-- A pattern that a rule within reach looks back with, or the trigger of such a rule. -/
def LooksFor (p : Playbook) (topic pattern : Text) : Prop :=
  ∃ place r, place ∈ p.topics.followers p.depth topic ∧ p.topics.ruleAt? topic place = some r ∧
    (r.previous = some pattern ∨ r.pattern = pattern)

/-- The fault is that of such a pattern. -/
def Blames (p : Playbook) (s : Surroundings) (strict : Bool) (topic : Text) (fault : Fault) : Prop :=
  ∃ pattern cause, p.LooksFor topic pattern ∧ Matcher.ofPattern s strict pattern = .error cause ∧
    fault = .pattern pattern cause

/-- How rules that follow on the bot's last reply are found, and where they are not looked for. -/
structure FindsFollowers (p : Playbook) : Prop where
  /-- The first one that fits is found, with what is remembered of both its patterns. -/
  found_iff : ∀ (b : Bot) user topic message found tried,
    (surroundings b p user).history.reply 0 ≠ undefinedText →
      matchPrevious b p user topic message = .ok (found, tried) → ∀ m, found = some m ↔
        ∃ place, FollowsFirst p (surroundings b p user) b.settings.strict topic
          (p.canon.format true ((surroundings b p user).history.reply 0)) message place m
  none_iff : ∀ (b : Bot) user topic message found tried,
    (surroundings b p user).history.reply 0 ≠ undefinedText →
      matchPrevious b p user topic message = .ok (found, tried) → (found = none ↔
        ∀ place m, ¬ Selection.Follows p (surroundings b p user) b.settings.strict topic
          (p.canon.format true ((surroundings b p user).history.reply 0)) message place m)
  /-- Nothing else can go wrong. -/
  fault : ∀ (b : Bot) user topic message fault,
    matchPrevious b p user topic message = .error fault →
      p.Blames (surroundings b p user) b.settings.strict topic fault
  /-- What a redirect leads to follows on nothing. -/
  deeper : ∀ a, a.playbook = p → ∀ depth, 0 < depth → ∀ step topic message q r m,
    (Answer.findRule a (depth == 0) step topic message).run.run q = (.ok (some m), r) →
      m.rule.previous = none ∧ m.viaPrevious = false
  record : ∀ (b : Bot) draws user message e, b.playbook = some p →
    (b.reply draws user message).result = .ok e → ∀ step ∈ e.steps, 0 < step.depth →
      step.viaPrevious = false ∧ ∀ pattern ∈ step.matched, ∃ topic position r,
        p.topics.rule? topic position = some r ∧ r.pattern = pattern ∧ r.previous = none

theorem finds_matchPrevious (hp : p.IndexesAll) {b : Bot} {user topic message : Text}
    {found : Option Match} {tried : Nat}
    (hreply : (surroundings b p user).history.reply 0 ≠ undefinedText)
    (h : matchPrevious b p user topic message = .ok (found, tried)) :
    Finds (fun place => ∀ m, ¬ Selection.Follows p (surroundings b p user) b.settings.strict topic
        (p.canon.format true ((surroundings b p user).history.reply 0)) message place m)
      (Selection.Follows p (surroundings b p user) b.settings.strict topic
        (p.canon.format true ((surroundings b p user).history.reply 0)) message)
      (p.topics.followers p.depth topic) found := by
  simp only [matchPrevious] at h
  split at h
  · rename_i hnone
    cases h
    have hlooks : p.looksBack (p.topics.tree p.depth topic) = false := by
      rw [Bool.or_eq_true, decide_eq_true_eq] at hnone
      simpa using hnone.resolve_right hreply
    rw [followers_eq_nil hp hlooks]
    apply Finds.nothing
    intro place hplace
    exact absurd hplace List.not_mem_nil
  · rw [tried_eq_indexed hp] at h
    exact finds_firstLookback (fun e he => Topics.mem_indexed.mp he) h

theorem blames_tryPattern {s : Surroundings} {strict : Bool} {topic pattern : Text}
    (hlooks : p.LooksFor topic pattern) (text : Text) :
    Within (p.Blames s strict topic) (tryPattern s strict pattern text) := by
  intro fault hfault
  rw [tryPattern] at hfault
  split at hfault
  · cases hfault
  · rename_i cause hcause
    cases hfault
    exact ⟨pattern, cause, hlooks, hcause, rfl⟩

/-- Both patterns of a rule are looked for if the one to look back with is indexed. -/
theorem looksFor_of_mem_indexed {topic : Text} {e : Topics.Indexed} {t : Topic} {i : Nat}
    (he : e ∈ p.topics.indexed p.depth topic) (hwithin : e.Within p.topics p.depth topic t)
    (hi : i ∈ e.lookback.positions) : ∃ r, t.rules[i]? = some r ∧
      p.LooksFor topic r.pattern ∧ p.LooksFor topic e.lookback.pattern := by
  have hplace : ⟨e.trail, i⟩ ∈ e.places := List.mem_map.mpr ⟨i, hi, rfl⟩
  obtain ⟨r, hr, hprevious⟩ := (hwithin.at_iff i).mp hplace
  have hfollower : ⟨e.trail, i⟩ ∈ p.topics.followers p.depth topic :=
    List.mem_flatMap.mpr ⟨e, he, hplace⟩
  have hat := Topics.ruleAt?_of_follow? hwithin.follow hwithin.find i
  rw [hr] at hat
  exact ⟨r, hr, ⟨_, r, hfollower, hat, Or.inr rfl⟩, ⟨_, r, hfollower, hat, Or.inl hprevious⟩⟩

theorem fault_of_matchPrevious (hp : p.IndexesAll) {b : Bot} {user topic message : Text}
    {fault : Fault} (h : matchPrevious b p user topic message = .error fault) :
    p.Blames (surroundings b p user) b.settings.strict topic fault := by
  simp only [matchPrevious] at h
  split at h
  · cases h
  rw [tried_eq_indexed hp] at h
  refine within_firstLookback _ message 0 (fun entry hentry => ?_) fault h
  obtain ⟨e, he, rfl⟩ := List.mem_map.mp hentry
  obtain ⟨t, hwithin⟩ := Topics.mem_indexed.mp he
  constructor
  · obtain ⟨i, hi⟩ := List.exists_mem_of_ne_nil _
      ((Lookback.indexes_index t).positions_ne_nil hwithin.index)
    obtain ⟨r, -, -, hlooks⟩ := looksFor_of_mem_indexed he hwithin hi
    exact blames_tryPattern hlooks _
  · intro i hi r hr
    obtain ⟨r', hr', hlooks, -⟩ := looksFor_of_mem_indexed he hwithin hi
    rw [Topics.rule?, hwithin.find] at hr
    obtain rfl := Option.some.inj (hr'.symm.trans hr)
    exact blames_tryPattern hlooks _

theorem previous_of_deeper {a : Asking} {step : Nat} {topic message : Text} {q r : Process}
    {m : Match} (h : (Answer.findRule a false step topic message).run.run q = (.ok (some m), r)) :
    m.rule.previous = none ∧ m.viaPrevious = false := by
  have hyields : Answering.Yields (Answer.findRule a false step topic message) (some m) := ⟨q, r, h⟩
  obtain ⟨b, -, hyields⟩ := Answering.yields_bind hyields
  obtain ⟨following, hfollowing, hyields⟩ := Answering.yields_bind hyields
  obtain rfl : following = none := (Answering.yields_pure hfollowing).symm
  obtain ⟨found, hfound, hyields⟩ := Answering.yields_bind hyields
  obtain ⟨_, -, hyields⟩ := Answering.yields_bind hyields
  obtain rfl := Answering.yields_pure hyields
  obtain ⟨n, hmatch⟩ := yields_tryOut hfound
  obtain ⟨_, _, -, -, -, hnamed, hvia⟩ := named_of_matchTrigger hmatch
  refine ⟨?_, hvia⟩
  have hprevious := hnamed.previous
  rw [hvia] at hprevious
  exact Option.isNone_iff_eq_none.mp (Option.isSome_eq_false_iff.mp hprevious.symm)

theorem tells_reply (hp : p.InRange) {b : Bot} (hb : b.playbook = some p) {draws : List Nat}
    {user message : Text} {e : Exchange} (h : (b.reply draws user message).result = .ok e) :
    ∃ lastMatch, Tells p e.steps e.tried lastMatch := by
  obtain ⟨reply, q, hrun, rfl⟩ := Bot.answered_of_ok hb h
  have hstart : Process.Told ⟨user, p⟩ { bot := b.onRoster (·.welcome user), draws } :=
    { tried := rfl
      order := fun before s after heq => by simp at heq
      previous := fun _ hs => nomatch hs
      matched := fun _ hs => nomatch hs
      last := fun _ hs => nomatch hs }
  exact ⟨_, (Answer.continues_answer hp _ hrun).told (.inl rfl) hstart⟩

/-- A message is answered by the first rule within reach that follows on the bot's last reply: first
in the order of the walks, an included topic before an inherited one, then of the patterns of a topic
to look back with, by their first appearance, then of the rules. Redirects lead to no such rule. -/
theorem findsFollowers {script : Script} (hs : script.topics.keys.Nodup) {settings : Settings}
    {depth : Nat} (hp : ofScript settings depth script = .ok p) : p.FindsFollowers := by
  have hindexes := indexesAll_of_ofScript hs hp
  have hrange : p.InRange := by
    rw [eq_build hp]
    exact inRange_build hs
  constructor
  · intro b user topic message found tried hreply h
    exact (followsFirst_of_finds (finds_matchPrevious hindexes hreply h)).1
  · intro b user topic message found tried hreply h
    exact (followsFirst_of_finds (finds_matchPrevious hindexes hreply h)).2
  · intro b user topic message fault h
    exact fault_of_matchPrevious hindexes h
  · intro a _ depth hdepth step topic message q r m h
    have hfirst : (depth == 0) = false := by
      rw [beq_eq_false_iff_ne]
      omega
    rw [hfirst] at h
    exact previous_of_deeper h
  · intro b draws user message e hb h step hstep hdepth
    obtain ⟨lastMatch, htells⟩ := tells_reply hrange hb h
    have hvia : step.viaPrevious = false := by
      rw [← Bool.not_eq_true]
      intro htrue
      have hzero := htells.previous step hstep htrue
      omega
    refine ⟨hvia, fun pattern hpattern => ?_⟩
    obtain ⟨topic, position, r, hr, hpat, hprevious⟩ :=
      allBacked_reply hrange hb h step hstep pattern hpattern
    rw [hvia] at hprevious
    refine ⟨topic, position, r, hr, hpat, ?_⟩
    exact Option.isNone_iff_eq_none.mp (Option.isSome_eq_false_iff.mp hprevious.symm)

/-- Two topics that include each other. In the first one a rule looks back with a pattern that fits,
but its trigger does not, and so does the first rule of the second one. -/
def visiting : Script :=
  { topics := ⟨[
      ("random", {
        rules := [{ pattern := "nobody", previous := some "(who|what) is there" }]
        includes := ["door"] }),
      ("door", {
        rules := [{ pattern := "* at *", previous := some "who is *" },
          { pattern := "it is *", replies := ["<botstar>, <star>?"], previous := some "who * there" },
          { pattern := "*", previous := some "who is *" }]
        includes := ["random"] })]⟩ }

def visited : Bot :=
  { playbook := some (build {} 3 visiting)
    roster := ({} : Roster).record "user" "knock knock" "Who is there?" }

def visitor : Match where
  topic := "door"
  rule := { pattern := "*", previous := some "who is *" }
  viaPrevious := true
  stars := ["it is me"]
  botStars := ["there"]

/-- The last rule stands before the second one, as its pattern appears before. -/
theorem visiting_findsFollowers :
    matchPrevious visited (build {} 3 visiting) "user" "random" "it is me" = .ok (some visitor, 5) ∧
    ∃ place, FollowsFirst (build {} 3 visiting) (surroundings visited (build {} 3 visiting) "user")
      false "random" "who is there" "it is me" place visitor := by
  have hlenient : ({} : Settings).strict = false := rfl
  have hp := ofScript_of_lenient hlenient 3 visiting
  have hmatch : matchPrevious visited (build {} 3 visiting) "user" "random" "it is me" =
      .ok (some visitor, 5) := Answering.ok_of_toOption (by decide +kernel)
  have hreply : (surroundings visited (build {} 3 visiting) "user").history.reply 0 =
      "Who is there?" := by decide +kernel
  have hform : (build {} 3 visiting).canon.format true "Who is there?" = "who is there" := by
    decide +kernel
  have hknown : (surroundings visited (build {} 3 visiting) "user").history.reply 0 ≠
      undefinedText := by
    rw [hreply]
    decide
  have hfirst := ((findsFollowers (by decide) hp).found_iff visited "user" "random" "it is me" _ _
    hknown hmatch visitor).mp rfl
  rw [hreply, hform] at hfirst
  exact ⟨hmatch, hfirst⟩

end Playbook

end Dialogue
