import Dialogue.Proofs.Nesting
import Dialogue.Proofs.OwnText
import Dialogue.Script.Document

/-! What is read back of the entries of a pool. The mark of a level stands in one text with the
pattern behind it, so a pattern that begins like a mark is safe only where it has one. -/
namespace Dialogue

namespace Topics

variable {topics : Topics} {limit : Nat} {name : Text} {o : Origin}

/-- The level at which a pool ranks a rule; rules have none as long as nothing on the walk to them
inherits. -/
def levelOf? (topics : Topics) (name : Text) (o : Origin) : Option Nat :=
  if topics.inheriting name o.route then some o.route.level else none

/-- What is read of an entry is the pattern of its rule and the level it was ranked at. -/
structure ReadBack (topics : Topics) (name : Text) (o : Origin) : Prop where
  pattern : (topics.entryOf name o).pattern = o.rule.pattern
  level : (topics.entryOf name o).level = topics.levelOf? name o

/-- An entry without a mark, whose pattern begins with something that reads as one. -/
structure Mistaken (topics : Topics) (name : Text) (o : Origin) : Prop where
  unmarked : topics.inheriting name o.route = false
  mark : (Entry.readLevel o.rule.pattern).isSome

theorem readBack_of_marked (hmarked : topics.inheriting name o.route = true)
    (hlevel : o.route.level < Nat.pow 2 64) : topics.ReadBack name o := by
  have hentry : topics.entryOf name o =
      Entry.ofText (levelMark o.route.level ++ o.rule.pattern) := by
    rw [entryOf, mark, if_pos hmarked]
  constructor
  · rw [hentry, Entry.pattern_levelMark]
  · rw [hentry, Entry.level_levelMark, if_pos hlevel, levelOf?, if_pos hmarked]

theorem entryOf_of_unmarked (hunmarked : topics.inheriting name o.route = false) :
    topics.entryOf name o = Entry.ofText o.rule.pattern := by
  simp [entryOf, mark, hunmarked]

theorem readBack_of_unmarked (hunmarked : topics.inheriting name o.route = false)
    (hplain : Entry.readLevel o.rule.pattern = none) : topics.ReadBack name o := by
  obtain ⟨hpattern, hlevel⟩ := Entry.ofText_of_readLevel_none hplain
  constructor
  · rw [entryOf_of_unmarked hunmarked, hpattern]
  · rw [entryOf_of_unmarked hunmarked, hlevel]
    simp [levelOf?, hunmarked]

/-- What looks like a mark is taken from the pattern, and its number for the level. -/
theorem Mistaken.read (h : topics.Mistaken name o) : ∃ digits rest,
    o.rule.pattern = "\x7binherits=" ++ (digits ++ '\x7d' :: rest) ∧
      (topics.entryOf name o).pattern = rest ∧
      (topics.entryOf name o).level = Numeral.count? digits := by
  obtain ⟨⟨digits, rest⟩, hread⟩ := Option.isSome_iff_exists.mp h.mark
  have hentry := entryOf_of_unmarked h.unmarked
  refine ⟨digits, rest, (Entry.readLevel_eq_some hread).1, ?_, ?_⟩
  · simp [hentry, Entry.ofText, hread]
  · simp [hentry, Entry.ofText, hread]

theorem Mistaken.not_readBack (h : topics.Mistaken name o) : ¬ topics.ReadBack name o := by
  intro hback
  obtain ⟨digits, rest, hpattern, hrest, -⟩ := h.read
  have hsame : o.rule.pattern = rest := by rw [← hback.pattern, hrest]
  have hlength := congrArg List.length hpattern
  rw [hsame] at hlength
  simp only [List.length_append, List.length_cons] at hlength
  omega

theorem readBack_iff (hlevel : o.route.level < Nat.pow 2 64) :
    topics.ReadBack name o ↔ ¬ topics.Mistaken name o := by
  constructor
  · intro hback h
    exact h.not_readBack hback
  · intro hnot
    cases hmarked : topics.inheriting name o.route with
    | true => exact readBack_of_marked hmarked hlevel
    | false =>
      apply readBack_of_unmarked hmarked
      by_contra hsome
      exact hnot ⟨hmarked, Option.isSome_iff_ne_none.mpr hsome⟩

theorem level_lt_of_mem_origins (hlimit : limit < Nat.pow 2 64)
    (ho : o ∈ topics.origins limit name) : o.route.level < Nat.pow 2 64 := by
  have hlength := (mem_origins.mp ho).1
  have hle := o.route.level_le_length
  omega

end Topics

namespace Selection

open Topics

variable {settings : Settings} {depth : Nat} {script : Script} {p : Playbook} {name : Text}

/-- The patterns that are tried in a topic, in their order. -/
def triedIn (p : Playbook) (name : Text) : List Text := (p.ranked.find? name).getD []

theorem mem_triedIn (hp : Playbook.ofScript settings depth script = .ok p) {q : Text} :
    q ∈ triedIn p name ↔
      ∃ o ∈ script.topics.origins depth name, (script.topics.entryOf name o).pattern = q := by
  obtain rfl := Playbook.eq_build hp
  rw [triedIn, Playbook.tried_eq, Topics.entries, pool_eq, List.map_map]
  simp [entryOf]

/-- The rule of an entry is within reach, whatever is read of the entry. -/
theorem owned_of_mem_origins (hp : Playbook.ofScript settings depth script = .ok p) {o : Origin}
    (ho : o ∈ script.topics.origins depth name) : Owned p name o.rule.pattern := by
  obtain rfl := Playbook.eq_build hp
  obtain ⟨hlength, last, topic, hwalk, htopic, hrule, hprevious⟩ := mem_origins.mp ho
  have hcarries : script.topics.Carries last o.rule.pattern :=
    ⟨topic, o.rule, htopic, List.mem_of_getElem? hrule, hprevious, rfl⟩
  obtain ⟨owner, position, howner⟩ := exists_owner_of_carries hwalk hlength hcarries
  exact Option.isSome_iff_exists.mpr ⟨_, howner⟩

/-- The first pattern that matches is the one that answers. -/
def SkipsNone (p : Playbook) (name : Text) : Prop :=
  ∀ (b : Bot) (user message : Text) (found : Option Match) (tried : Nat),
    matchTrigger b p user name message = .ok (found, tried) →
    match found with
    | none => ∀ q ∈ triedIn p name,
        tryPattern (surroundings b p user) b.settings.strict q message = .ok none
    | some m => ∃ before after, triedIn p name = before ++ m.rule.pattern :: after ∧
        tryPattern (surroundings b p user) b.settings.strict m.rule.pattern message =
          .ok (some m.stars) ∧
        ∀ q ∈ before, tryPattern (surroundings b p user) b.settings.strict q message = .ok none

theorem skipsNone_of_owned (howned : ∀ q ∈ triedIn p name, Owned p name q) : SkipsNone p name := by
  intro b user message found tried h
  rcases firstTrigger_ok h with ⟨hnone, hall⟩ | ⟨before, q, after, m, hsplit, hm, ha, hbefore⟩
  · obtain rfl : found = none := hnone
    intro q hq
    exact hall q hq (howned q hq)
  · obtain rfl : found = some m := hm
    have hq := ha.pattern_eq
    refine ⟨before, after, ?_, ?_, ?_⟩
    · rw [hq]
      exact hsplit
    · rw [hq]
      exact ha.fits
    · intro passed hpassed
      apply hbefore passed hpassed
      apply howned
      rw [triedIn, hsplit]
      exact List.mem_append_left _ hpassed

/-- What is read back in a topic: of every entry what was written, unless it is mistaken. A pattern
that is tried and that nobody owns comes of a mistaken entry. -/
structure ReadsBack (p : Playbook) (topics : Topics) (limit : Nat) (name : Text) : Prop where
  entries : topics.pool limit name = (topics.origins limit name).map (topics.mark name)
  readBack_iff : ∀ o ∈ topics.origins limit name,
    (topics.ReadBack name o ↔ ¬ topics.Mistaken name o)
  mistaken : ∀ o ∈ topics.origins limit name, topics.Mistaken name o → ∃ digits rest,
    o.rule.pattern = "\x7binherits=" ++ (digits ++ '\x7d' :: rest) ∧
      (topics.entryOf name o).pattern = rest ∧
      (topics.entryOf name o).level = Numeral.count? digits
  owned : ∀ o ∈ topics.origins limit name, ¬ topics.Mistaken name o →
    Owned p name (topics.entryOf name o).pattern
  owned_iff : (∀ q ∈ triedIn p name, Owned p name q) ↔
    ∀ o ∈ topics.origins limit name, topics.Mistaken name o →
      Owned p name (topics.entryOf name o).pattern
  skipsNone : (∀ o ∈ topics.origins limit name, ¬ topics.Mistaken name o) → SkipsNone p name

/-- What was marked is read back, and so is what was not marked and does not begin like a mark. If
that is all there is, every pattern that is tried has an owner and none that matches is skipped. -/
theorem readsBack (hp : Playbook.ofScript settings depth script = .ok p)
    (hdepth : depth < Nat.pow 2 64) (name : Text) : ReadsBack p script.topics depth name := by
  have hback : ∀ o ∈ script.topics.origins depth name,
      (script.topics.ReadBack name o ↔ ¬ script.topics.Mistaken name o) := by
    intro o ho
    exact Topics.readBack_iff (level_lt_of_mem_origins hdepth ho)
  have howned : ∀ o ∈ script.topics.origins depth name, ¬ script.topics.Mistaken name o →
      Owned p name (script.topics.entryOf name o).pattern := by
    intro o ho hnot
    rw [((hback o ho).mpr hnot).pattern]
    exact owned_of_mem_origins hp ho
  have hiff : (∀ q ∈ triedIn p name, Owned p name q) ↔
      ∀ o ∈ script.topics.origins depth name, script.topics.Mistaken name o →
        Owned p name (script.topics.entryOf name o).pattern := by
    constructor
    · intro hall o ho _
      exact hall _ ((mem_triedIn hp).mpr ⟨o, ho, rfl⟩)
    · intro hmistaken q hq
      obtain ⟨o, ho, rfl⟩ := (mem_triedIn hp).mp hq
      by_cases h : script.topics.Mistaken name o
      · exact hmistaken o ho h
      · exact howned o ho h
  refine ⟨pool_eq _ _ _, hback, fun o _ h => h.read, howned, hiff, ?_⟩
  intro hnone
  apply skipsNone_of_owned
  apply hiff.mpr
  intro o ho h
  exact absurd h (hnone o ho)

/-- A pattern that begins like a mark, in a topic that inherits. -/
def branded : Script :=
  { topics := ⟨[("random",
      { rules := [{ pattern := "\x7binherits=7\x7dhello" }], inherits := ["far"] }),
      ("far", { rules := [{ pattern := "hello" }] })]⟩ }

theorem branded_origins : branded.topics.origins 50 "random" =
    [⟨[(.inherits, "far")], 0, { pattern := "hello" }⟩,
      ⟨[], 0, { pattern := "\x7binherits=7\x7dhello" }⟩] := by
  decide +kernel

theorem branded_readsBack :
    (∀ o ∈ branded.topics.origins 50 "random", branded.topics.ReadBack "random" o) ∧
      SkipsNone (Playbook.build {} 50 branded) "random" := by
  have hlenient : ({} : Settings).strict = false := rfl
  have hp := Playbook.ofScript_of_lenient hlenient 50 branded
  have hback := readsBack hp (by decide) "random"
  have hnone : ∀ o ∈ branded.topics.origins 50 "random", ¬ branded.topics.Mistaken "random" o := by
    rw [branded_origins]
    intro o ho h
    have hmarked : branded.topics.inheriting "random" o.route = true := by
      rcases List.mem_pair.mp ho with rfl | rfl <;> rfl
    rw [h.unmarked] at hmarked
    cases hmarked
  constructor
  · intro o ho
    exact (hback.readBack_iff o ho).mpr (hnone o ho)
  · exact hback.skipsNone hnone

def brandedAlone : Rule := { pattern := "\x7binherits=1\x7dhello", replies := ["Hi."] }

/-- A strict reader lets a pattern through that begins like a mark. As the topic does not inherit,
nothing stands before it in the pool, and what is tried is a pattern of nobody. -/
theorem mistaken_skipped :
    ((Document.ofText .unicode "" "+ \x7binherits=1\x7dhello\n- Hi.\n").toOption.map fun doc =>
      (({} : Script).merge doc).topics) = some (single [brandedAlone]).topics ∧
    (single [brandedAlone]).topics.pool 50 "random" = [brandedAlone.pattern] ∧
    (Entry.ofText brandedAlone.pattern).pattern = "hello" ∧
    (Entry.ofText brandedAlone.pattern).level = some 1 ∧
    triedIn (Playbook.build .unicode 50 (single [brandedAlone])) "random" = [("hello" : Text)] ∧
    ¬ Owned (Playbook.build .unicode 50 (single [brandedAlone])) "random" "hello" ∧
    tryPattern {} true "hello" "hello" = .ok (some []) ∧
    matchTrigger { settings := .unicode } (Playbook.build .unicode 50 (single [brandedAlone]))
      "user" "random" "hello" = .ok (none, 1) := by
  have hpool : (single [brandedAlone]).topics.pool 50 "random" = [brandedAlone.pattern] := rfl
  have hranked : (Playbook.build .unicode 50 (single [brandedAlone])).ranked =
      ⟨[("random", ["hello"])]⟩ := ranked_single (by decide) (by decide +kernel)
  have htried : triedIn (Playbook.build .unicode 50 (single [brandedAlone])) "random" =
      [("hello" : Text)] := by
    rw [triedIn, hranked]
    rfl
  have hnobody : (single [brandedAlone]).topics.owner? 50 "random" "hello" = none := by
    decide +kernel
  have hskipped : ¬ Owned (Playbook.build .unicode 50 (single [brandedAlone])) "random" "hello" := by
    intro howned
    have hsome : ((single [brandedAlone]).topics.owner? 50 "random" "hello").isSome := howned
    rw [hnobody] at hsome
    cases hsome
  refine ⟨by decide +kernel, hpool, rfl, by decide, htried, hskipped, by decide +kernel, ?_⟩
  rw [triedIn] at htried
  rw [matchTrigger, htried]
  decide +kernel

end Selection
end Dialogue
