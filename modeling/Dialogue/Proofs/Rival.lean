import Dialogue.Proofs.Choice
import Dialogue.Proofs.Inheritance
import Dialogue.Proofs.Literal

/-! A literal trigger and what can be tried before it. The scan that ranks triggers reads them in
part, so a trigger that matches more than its own words can pass for one of many words. -/
namespace Dialogue

open Selection

/-- A script of a single topic with ordinary triggers: none of them looks back or has a weight. -/
structure Plain (s : Script) (name : Text) (topic : Topic) : Prop where
  only : s.topics = ⟨[(name, topic)]⟩
  not_begin : name ≠ Topic.begin
  substitutions : s.substitutions.entries = []
  previous : ∀ r ∈ topic.rules, r.previous = none
  weight : ∀ r ∈ topic.rules, Weight.first? r.pattern = none

namespace Selection

variable {p : Playbook} {s : Surroundings} {strict : Bool} {topic message : Text}

/-- A trigger that can answer is not passed over: it decides, or one before it does. -/
theorem firstTrigger_decides {patterns : List Text} {t : Text} (ht : t ∈ patterns)
    (howned : Owned p topic t) (hfits : tryPattern s strict t message ≠ .ok none) :
    ∃ before pattern after, patterns = before ++ pattern :: after ∧
      (∀ passed ∈ before, Owned p topic passed → tryPattern s strict passed message = .ok none) ∧
      Decides p s strict topic message pattern
        (firstTrigger p s strict topic message 0 patterns) := by
  rcases firstTrigger_run 0 patterns with ⟨hall, -⟩ | hrun
  · exact absurd (hall t ht howned) hfits
  · exact hrun

/-- Then an entry of the pool decides, and it is that of the trigger or has a better key. -/
theorem tried_decides {script : Script} {settings : Settings} {depth : Nat} {name : Text}
    {own : Entry} (hown : own ∈ script.topics.entries depth name)
    (howned : Owned (Playbook.build settings depth script) name own.pattern)
    (hfits : tryPattern s strict own.pattern message ≠ .ok none) :
    ∃ e ∈ script.topics.entries depth name,
      (e.pattern ≠ own.pattern → Entry.order e own = .lt) ∧
      Decides (Playbook.build settings depth script) s strict name message e.pattern
        (firstTrigger (Playbook.build settings depth script) s strict name message 0
          (((Playbook.build settings depth script).ranked.find? name).getD [])) := by
  rw [Playbook.tried_eq]
  have htried : own.pattern ∈ (Entry.arranged (script.topics.entries depth name)).map Entry.pattern :=
    List.mem_map_of_mem (Entry.mem_arranged.mpr hown)
  obtain ⟨before, q, after, hsplit, hbefore, hd⟩ := firstTrigger_decides htried howned hfits
  obtain ⟨es, rest, harranged, rfl, hrest⟩ := List.map_eq_append_iff.mp hsplit
  obtain ⟨e, es', rfl, rfl, -⟩ := List.map_eq_cons_iff.mp hrest
  have he : e ∈ script.topics.entries depth name := by
    rw [← Entry.mem_arranged, harranged]
    exact List.mem_append_right _ List.mem_cons_self
  -- Had the trigger's own entry stood before, it would not have been passed over.
  have hnot : Entry.order own e ≠ .lt := by
    intro hlt
    have hpassed := List.mem_map_of_mem (f := Entry.pattern)
      (Entry.mem_before_of_lt harranged hown hlt)
    exact hfits (hbefore own.pattern hpassed howned)
  exact ⟨e, he, fun hne => Entry.order_lt_of_ne hne hnot, hd⟩

end Selection

/-! ### The only topic -/

namespace Plain

variable {s : Script} {name : Text} {topic : Topic} {depth : Nat}

theorem find?_eq_some (h : Plain s name topic) {other : Text} {t : Topic} :
    s.topics.find? other = some t ↔ other = name ∧ t = topic := by
  rw [h.only, Table.find?]
  by_cases ho : other = name
  · simp [ho, eq_comm]
  · have hne : (other == name) = false := by simpa using ho
    simp [List.lookup_cons, hne, ho]

theorem walk (h : Plain s name topic) {first last : Text} {route : Route}
    (w : Topics.Walk s.topics first route last) :
    first = name ∧ last = name ∧ ∀ l ∈ route, l.2 = name := by
  induction w with
  | stay ht => exact ⟨(h.find?_eq_some.mp ht).1, (h.find?_eq_some.mp ht).1, by simp⟩
  | go ht _ _ ih =>
    obtain ⟨hnext, hlast, hroute⟩ := ih
    exact ⟨(h.find?_eq_some.mp ht).1, hlast, List.forall_mem_cons.mpr ⟨hnext, hroute⟩⟩

theorem rule_mem (h : Plain s name topic) {other : Text} {position : Nat} {r : Rule}
    (hr : s.topics.rule? other position = some r) : r ∈ topic.rules := by
  obtain ⟨t, ht, hr⟩ := Option.bind_eq_some_iff.mp hr
  rw [(h.find?_eq_some.mp ht).2] at hr
  exact List.mem_of_getElem? hr

/-- Every entry is marked, or none is. -/
theorem mark_eq (h : Plain s name topic) {o : Origin} (ho : o ∈ s.topics.origins depth name) :
    o.rule ∈ topic.rules ∧ s.topics.mark name o =
      if topic.inherits = [] then o.rule.pattern
      else Topics.levelMark o.route.level ++ o.rule.pattern := by
  obtain ⟨-, last, t, w, ht, hr, -⟩ := Topics.mem_origins.mp ho
  obtain ⟨-, -, hroute⟩ := h.walk w
  have hfind : s.topics.find? name = some topic := h.find?_eq_some.mpr ⟨rfl, rfl⟩
  have hown : s.topics.inherits name = !topic.inherits.isEmpty := by
    simp [Topics.inherits, hfind]
  have hall : s.topics.inheriting name o.route = s.topics.inherits name := by
    rw [Topics.inheriting, List.any_cons]
    cases hi : s.topics.inherits name with
    | true => rfl
    | false =>
      rw [Bool.false_or, List.any_eq_false]
      intro n hn
      obtain ⟨l, hl, rfl⟩ := List.mem_map.mp hn
      rw [hroute l hl, hi]
      exact Bool.false_ne_true
  refine ⟨?_, ?_⟩
  · rw [(h.find?_eq_some.mp ht).2] at hr
    exact List.mem_of_getElem? hr
  · rw [Topics.mark, hall, hown]
    cases topic.inherits <;> rfl

/-- The rules of the topic are entries themselves, at the lowest level if entries are marked. -/
theorem local_mem (h : Plain s name topic) (depth : Nat) {r : Rule} (hr : r ∈ topic.rules) :
    ∃ o ∈ s.topics.origins depth name, o.rule = r ∧ o.route = [] := by
  obtain ⟨i, hi⟩ := List.mem_iff_getElem?.mp hr
  have hfind : s.topics.find? name = some topic := h.find?_eq_some.mpr ⟨rfl, rfl⟩
  refine ⟨⟨[], i, r⟩, ?_, rfl, rfl⟩
  rw [Topics.mem_origins]
  exact ⟨Nat.zero_le _, name, topic, .stay hfind, hfind, hi, h.previous r hr⟩

theorem owned (h : Plain s name topic) (settings : Settings) {r : Rule} (hr : r ∈ topic.rules) :
    Owned (Playbook.build settings depth s) name r.pattern := by
  have hfind : s.topics.find? name = some topic := h.find?_eq_some.mpr ⟨rfl, rfl⟩
  have hcarries : s.topics.Carries name r.pattern :=
    ⟨topic, r, hfind, hr, h.previous r hr, rfl⟩
  obtain ⟨owner, position, ho⟩ :=
    Topics.exists_owner_of_carries (.stay hfind) (Nat.zero_le depth) hcarries
  exact Option.isSome_iff_exists.mpr ⟨_, ho⟩

end Plain

/-! ### Rivals -/

/-- A trigger that the scan takes for a literal one of more words, or as many and more characters,
though it has a sign that the scan does not see, or other white space. -/
structure PassesForLiteral (topic : Topic) (t q : Text) : Prop where
  trigger : ∃ r ∈ topic.rules, r.pattern = q
  atomic : Shape.scan {} false q = {}
  ahead : Entry.Ahead q t
  more : (∃ c ∈ Pattern.hiddenSigns, c ∈ q) ∨ Text.collapse q = t

/-- The text behind a level that is written by hand. It counts where the topic itself does not
inherit. -/
def HasHandmadeLevel (topic : Topic) (q : Text) : Prop :=
  topic.inherits = [] ∧ ∃ r ∈ topic.rules, ∃ digits, Entry.readLevel r.pattern = some (digits, q)

/-- The trigger does not let the message pass: it matches, or it cannot be matched at all, which
only strict bots mind. -/
def Stops (topic : Topic) (s : Surroundings) (strict : Bool) (t q : Text) : Prop :=
  (∃ fault, tryPattern s strict q t = .error fault) ∨
    ((∃ stars, tryPattern s strict q t = .ok (some stars)) ∧ ∃ r ∈ topic.rules, r.pattern = q)

theorem Stops.ne_none {topic : Topic} {s : Surroundings} {strict : Bool} {t q : Text}
    (h : Stops topic s strict t q) : tryPattern s strict q t ≠ .ok none := by
  rcases h with ⟨fault, hfault⟩ | ⟨⟨stars, hstars⟩, -⟩
  · rw [hfault]
    exact fun heq => nomatch heq
  · rw [hstars]
    exact fun heq => nomatch heq

/-- A trigger that stops the message of a literal one before that is tried. -/
structure Rival (topic : Topic) (s : Surroundings) (strict : Bool) (t q : Text) : Prop where
  ne : q ≠ t
  stops : Stops topic s strict t q
  ahead : PassesForLiteral topic t q ∨ HasHandmadeLevel topic q

namespace Plain

variable {s : Script} {name : Text} {topic : Topic} {depth : Nat} {sur : Surroundings}
  {strict : Bool} {t : Text}

def ownEntry (topic : Topic) (t : Text) : Entry :=
  Entry.plain (if topic.inherits = [] then none else some 0) t

theorem ownEntry_mem (h : Plain s name topic) (depth : Nat) (ht : IsLiteral t) {r : Rule}
    (hr : r ∈ topic.rules) (hrt : r.pattern = t) :
    ownEntry topic t ∈ s.topics.entries depth name := by
  obtain ⟨o, ho, rfl, hroute⟩ := h.local_mem depth hr
  have hweight : Weight.first? t = none := hrt ▸ h.weight _ hr
  have hentry : Entry.ofText (s.topics.mark name o) = ownEntry topic t := by
    rw [(h.mark_eq ho).2, hroute, hrt, ownEntry]
    split
    · exact Entry.ofText_of_none ht.readLevel hweight
    · exact Entry.ofText_levelMark 0 hweight
  rw [Topics.entries, Topics.pool_eq, List.map_map, ← hentry]
  exact List.mem_map_of_mem ho

/-- A verbatim trigger that holds a literal message has the same words. -/
theorem signs_or_collapse {q : Text} (hatomic : Shape.scan {} false q = {})
    (hweight : Weight.first? q = none) (hholds : tryPattern sur strict q t ≠ .ok none) :
    (∃ c ∈ Pattern.hiddenSigns, c ∈ q) ∨ Text.collapse q = t := by
  by_cases hsigns : ∃ c ∈ Pattern.hiddenSigns, c ∈ q
  · exact Or.inl hsigns
  · refine Or.inr ?_
    have hv : Pattern.isVerbatim q :=
      Pattern.isVerbatim_of_scan hatomic fun c hc hcq => hsigns ⟨c, hc, hcq⟩
    rw [tryPattern_of_isVerbatim sur strict hv hweight] at hholds
    by_contra hne
    rw [if_neg hne] at hholds
    exact hholds rfl

theorem passesForLiteral (h : Plain s name topic) (ht : IsLiteral t) {r : Rule}
    (hr : r ∈ topic.rules) {level : Option Nat}
    (hlt : Entry.order (Entry.plain level r.pattern) (Entry.plain level t) = .lt)
    (hholds : tryPattern sur strict r.pattern t ≠ .ok none) :
    PassesForLiteral topic t r.pattern := by
  obtain ⟨hatomic, hahead⟩ := Entry.order_plain_lt ht.scan hlt
  exact ⟨⟨r, hr, rfl⟩, hatomic, hahead, signs_or_collapse hatomic (h.weight r hr) hholds⟩

theorem eq_zero_of_order {level : Option Nat} {q : Text}
    (hlt : Entry.order (Entry.plain level q) (Entry.plain (some 0) t) = .lt) : level = some 0 := by
  by_contra hne
  have hgt : Entry.compareLevels level (some 0) = .gt := by
    cases level with
    | none => rfl
    | some n =>
      have hpos : 0 < n := Nat.pos_of_ne_zero fun hn => hne (congrArg some hn)
      exact Nat.compare_eq_gt.mpr hpos
  rw [Entry.order_of_levels (by simp [Entry.plain, hgt])] at hlt
  simp [Entry.plain, hgt] at hlt

theorem ahead_of_lt (h : Plain s name topic) (ht : IsLiteral t) {e : Entry}
    (he : e ∈ s.topics.entries depth name) (hlt : Entry.order e (ownEntry topic t) = .lt)
    (hholds : tryPattern sur strict e.pattern t ≠ .ok none) :
    PassesForLiteral topic t e.pattern ∨ HasHandmadeLevel topic e.pattern := by
  rw [Topics.entries, Topics.pool_eq, List.map_map] at he
  obtain ⟨o, ho, rfl⟩ := List.mem_map.mp he
  obtain ⟨hr, hmark⟩ := h.mark_eq ho
  have hweight := h.weight _ hr
  rw [Function.comp_apply] at hlt hholds ⊢
  by_cases hin : topic.inherits = []
  · rw [hmark, if_pos hin] at hlt hholds ⊢
    cases hlevel : Entry.readLevel o.rule.pattern with
    | none =>
      rw [Entry.ofText_of_none hlevel hweight] at hlt hholds ⊢
      rw [ownEntry, if_pos hin] at hlt
      exact Or.inl (h.passesForLiteral ht hr hlt hholds)
    | some found =>
      obtain ⟨digits, rest⟩ := found
      have hpattern : (Entry.ofText o.rule.pattern).pattern = rest := by
        rw [Entry.ofText, hlevel]
      exact Or.inr ⟨hin, o.rule, hr, digits, by rw [hlevel, hpattern]⟩
  · rw [hmark, if_neg hin, Entry.ofText_levelMark _ hweight] at hlt hholds ⊢
    rw [ownEntry, if_neg hin] at hlt
    -- No entry has a lower level than zero, so what stands before is on that level.
    rw [eq_zero_of_order hlt] at hlt
    exact Or.inl (h.passesForLiteral ht hr hlt hholds)

theorem stops_of_decides (h : Plain s name topic) {settings : Settings} {message q : Text}
    {result : Except Fault (Option Match × Nat)}
    (hd : Decides (Playbook.build settings depth s) sur strict name message q result) :
    Stops topic sur strict message q := by
  rcases hd with ⟨m, n, ha, -⟩ | ⟨fault, hfault, -⟩
  · obtain ⟨position, -, hrule⟩ := ha.owner
    exact Or.inr ⟨⟨m.stars, ha.fits⟩, m.rule, h.rule_mem hrule, ha.pattern_eq⟩
  · exact Or.inl ⟨fault, hfault⟩

/-- Whatever is tried, a literal trigger decides on its own text, or a rival does. -/
theorem decides (h : Plain s name topic) (ht : IsLiteral t)
    (hr : ∃ r ∈ topic.rules, r.pattern = t) (settings : Settings) :
    ∃ q, (q = t ∨ Rival topic sur strict t q) ∧
      Decides (Playbook.build settings depth s) sur strict name t q
        (firstTrigger (Playbook.build settings depth s) sur strict name t 0
          (((Playbook.build settings depth s).ranked.find? name).getD [])) := by
  obtain ⟨r, hr, hrt⟩ := hr
  have hown := h.ownEntry_mem depth ht hr hrt
  have howned : Owned (Playbook.build settings depth s) name t := hrt ▸ h.owned settings hr
  have hfits : tryPattern sur strict t t ≠ .ok none := by
    rw [tryPattern_literal sur strict ht (hrt ▸ h.weight r hr)]
    exact fun heq => nomatch heq
  obtain ⟨e, he, hahead, hd⟩ := tried_decides hown howned hfits
  refine ⟨e.pattern, ?_, hd⟩
  by_cases hne : e.pattern = t
  · exact Or.inl hne
  · have hstops := h.stops_of_decides hd
    exact Or.inr ⟨hne, hstops, h.ahead_of_lt ht he (hahead hne) hstops.ne_none⟩

end Plain

end Dialogue
