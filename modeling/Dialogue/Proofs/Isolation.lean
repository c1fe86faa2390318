import Dialogue.Proofs.Live
import Dialogue.Proofs.Usage

/-! Users side by side. A reply neither sees nor changes what is known of anybody but its own user, so
as long as nothing that users share changes, each of them is told what they would be told alone. -/
namespace Dialogue

namespace Bot

variable {b c d : Bot} {user : Text}

/-- Everything that users share. -/
def shared (b : Bot) : Bot := b.onRoster fun _ => {}

/-- The bots are the same, as far as one user is concerned. -/
structure SameTo (user : Text) (b c : Bot) : Prop where
  shared : b.shared = c.shared
  profile? : b.roster.profile? user = c.roster.profile? user

namespace SameTo

theorem refl (user : Text) (b : Bot) : b.SameTo user b := ⟨rfl, rfl⟩

theorem trans (h : b.SameTo user c) (k : c.SameTo user d) : b.SameTo user d :=
  ⟨h.shared.trans k.shared, h.profile?.trans k.profile?⟩

theorem part {α : Type} (h : b.SameTo user c) (g : Bot → α) : g b.shared = g c.shared :=
  congrArg g h.shared

theorem settings (h : b.SameTo user c) : b.settings = c.settings := h.part Bot.settings

theorem playbook (h : b.SameTo user c) : b.playbook = c.playbook := h.part Bot.playbook

theorem alike (h : b.SameTo user c) (p : Playbook) : Alike ⟨user, p⟩ b c := by
  apply alike_of
  · exact h.settings
  · exact h.part Bot.vars
  · exact h.part Bot.globals
  · exact h.part Bot.callables
  · rw [h.profile?]

theorem alter (h : b.SameTo user c) (f : Profile → Profile) :
    (b.onRoster (·.alter user f)).SameTo user (c.onRoster (·.alter user f)) where
  shared := h.shared
  profile? := by
    simp only [onRoster, Roster.profile?_alter_self, Roster.profile, h.profile?]

end SameTo

/-! ### Loading does not look at the users -/

theorem stream_onRoster (b : Bot) (f : Roster → Roster) (code : Text) :
    (b.onRoster f).stream code = (b.stream code).map (·.onRoster f) := by
  rw [stream, stream, load, load]
  show (Document.ofText b.settings "stream()" code).map _ = _
  cases Document.ofText b.settings "stream()" code <;> rfl

theorem sort_onRoster (b : Bot) (f : Roster → Roster) :
    (b.onRoster f).sort = b.sort.map (·.onRoster f) := by
  rw [sort, sort]
  show (Playbook.ofScript b.settings b.depth b.script).map _ = _
  cases Playbook.ofScript b.settings b.depth b.script <;> rfl

theorem hotLoad_onRoster (b : Bot) (f : Roster → Roster) (code : Text) :
    ((b.onRoster f).hotLoad code).2 = (b.hotLoad code).2.onRoster f := by
  rw [hotLoad, hotLoad, stream_onRoster]
  cases b.stream code with
  | error fault => rfl
  | ok loaded =>
    simp only [Except.map, sort_onRoster]
    cases loaded.sort <;> rfl

theorem SameTo.hotLoad (h : b.SameTo user c) (code : Text) :
    (b.hotLoad code).2.SameTo user (c.hotLoad code).2 where
  shared := by
    calc (b.hotLoad code).2.shared
        = (b.shared.hotLoad code).2 := (b.hotLoad_onRoster _ code).symm
      _ = (c.shared.hotLoad code).2 := by rw [h.shared]
      _ = (c.hotLoad code).2.shared := c.hotLoad_onRoster _ code
  profile? := by
    rw [roster_hotLoad, roster_hotLoad, h.profile?]

/-- No reply to a user sees what is known of others. -/
theorem unseen_sameTo (user : Text) : Unseen user (SameTo user) where
  setback h := Answering.setbackResult_congr h.settings
  alike h p := h.alike p
  alter h := h.alter
  setVar h name value := ⟨h.part fun b => b.setVar name value, h.profile?⟩
  setGlobal h name value := ⟨h.part fun b => b.setGlobal name value, h.profile?⟩
  hotLoad h := h.hotLoad

/-! ### Replies to several users -/

theorem profile?_reply_of_ne (b : Bot) (draws : List Nat) (message : Text) {other : Text}
    (h : other ≠ user) :
    (b.reply draws user message).bot.roster.profile? other = b.roster.profile? other := by
  obtain ⟨r, hr, heq⟩ := b.roster_reply draws user message
  rw [heq, ← hr.others other h]
  cases b.exchange? draws user message with
  | none => rfl
  | some e => exact r.profile?_alter_of_ne user h _

theorem frozen_reply (b : Bot) (draws : List Nat) (user message : Text) :
    (b.reply draws user message).bot.roster.frozen = b.roster.frozen := by
  obtain ⟨r, hr, heq⟩ := b.roster_reply draws user message
  rw [heq, ← hr.frozen]
  cases b.exchange? draws user message <;> rfl

/-! ### What users share -/

/-- What users share stays the same, apart from what can be called. -/
structure Unchanged (b c : Bot) : Prop where
  vars : c.vars = b.vars
  globals : c.globals = b.globals
  script : c.script = b.script
  playbook : c.playbook = b.playbook

theorem Unchanged.shared_eq (h : b.Unchanged c) (hsettings : c.settings = b.settings)
    (hcallables : c.callables = b.callables) : c.shared = b.shared := by
  rw [shared, shared, onRoster, onRoster, h.vars, h.globals, h.script, h.playbook, hsettings,
    hcallables]

/-- As long as nobody handles objects, none are handed over, whatever is loaded. -/
def KeepsCallables (b c : Bot) : Prop := b.callables.handlers = {} → c.callables = b.callables

theorem KeepsCallables.of_eq (h : c.callables = b.callables) : b.KeepsCallables c := fun _ => h

theorem KeepsCallables.trans (h : b.KeepsCallables c) (k : c.KeepsCallables d) :
    b.KeepsCallables d := by
  intro hnone
  have hc := h hnone
  rw [k (hc ▸ hnone), hc]

theorem keepsCallables_hotLoad (b : Bot) (code : Text) : b.KeepsCallables (b.hotLoad code).2 := by
  intro hnone
  rw [(b.sameLive_hotLoad code).callables]
  cases hload : b.stream code with
  | error fault => rfl
  | ok loaded =>
    obtain ⟨doc, -, rfl⟩ := Answering.ok_of_map hload
    apply deliverAll_of_unhandled
    intro o _
    rw [hnone]
    rfl

theorem admits_keepsCallables (user : Text) : Admits user KeepsCallables where
  refl _ := .of_eq rfl
  trans := .trans
  alter _ _ := .of_eq rfl
  setVar _ _ _ := .of_eq rfl
  setGlobal _ _ _ := .of_eq rfl
  hotLoad := keepsCallables_hotLoad

/-! ### Talking in turns -/

/-- A message of a user with the lots that are drawn for its reply. -/
structure Call where
  user : Text
  message : Text
  draws : List Nat := []
  deriving DecidableEq, Repr

def Call.reply (call : Call) (b : Bot) : Outcome := b.reply call.draws call.user call.message

def afterCalls (calls : List Call) (b : Bot) : Bot :=
  calls.foldl (fun b call => (call.reply b).bot) b

/-- What one user is told while several are talking. -/
def repliesTo (user : Text) : List Call → Bot → List (Except Fault Exchange)
  | [], _ => []
  | call :: calls, b =>
    if call.user = user then (call.reply b).result :: repliesTo user calls (call.reply b).bot
    else repliesTo user calls (call.reply b).bot

/-- Each call keeps to the relation. -/
def EachCall (R : Bot → Bot → Prop) : List Call → Bot → Prop
  | [], _ => True
  | call :: calls, b => R b (call.reply b).bot ∧ EachCall R calls (call.reply b).bot

instance EachCall.decidable (R : Bot → Bot → Prop) [DecidableRel R] :
    (calls : List Call) → (b : Bot) → Decidable (EachCall R calls b)
  | [], _ => .isTrue trivial
  | call :: calls, b =>
    have := EachCall.decidable R calls (call.reply b).bot
    inferInstanceAs (Decidable (R b (call.reply b).bot ∧ EachCall R calls (call.reply b).bot))

def SameCallables (b c : Bot) : Prop := c.callables = b.callables

theorem eachCall_sameCallables {calls : List Call} (h : b.callables.handlers = {}) :
    EachCall SameCallables calls b := by
  induction calls generalizing b with
  | nil => trivial
  | cons call calls ih =>
    have hsame : SameCallables b (call.reply b).bot :=
      (admits_keepsCallables call.user).reply b call.draws call.message h
    refine ⟨hsame, ih ?_⟩
    rw [hsame, h]

/-- One user's calls alone, and those of everybody together. The calls of others leave the bot the same
to the user, and the user's own ones do the same to both bots. -/
theorem alone_of_eachCall {calls : List Call} (h : b.SameTo user c)
    (hunchanged : EachCall Unchanged calls b) (hcallables : EachCall SameCallables calls b) :
    repliesTo user calls b = repliesTo user (calls.filter (·.user = user)) c ∧
    (afterCalls calls b).SameTo user (afterCalls (calls.filter (·.user = user)) c) := by
  induction calls generalizing b c with
  | nil => exact ⟨rfl, h⟩
  | cons call calls ih =>
    obtain ⟨hcall, hrest⟩ := hunchanged
    obtain ⟨hcallable, hcallables⟩ := hcallables
    by_cases huser : call.user = user
    · subst huser
      obtain ⟨hresult, hsame⟩ :=
        (unseen_sameTo call.user).reply h h.playbook call.draws call.message
      obtain ⟨htold, hafter⟩ := ih hsame hrest hcallables
      rw [List.filter_cons_of_pos (by simp)]
      refine ⟨?_, hafter⟩
      rw [repliesTo, repliesTo, if_pos rfl, if_pos rfl]
      exact congrArg₂ List.cons hresult htold
    · have hsettings : (call.reply b).bot.settings = b.settings :=
        (b.later_reply call.draws call.user call.message).settings
      have hother : (call.reply b).bot.SameTo user b :=
        ⟨hcall.shared_eq hsettings hcallable,
          b.profile?_reply_of_ne call.draws call.message (Ne.symm huser)⟩
      obtain ⟨htold, hafter⟩ := ih (hother.trans h) hrest hcallables
      rw [List.filter_cons_of_neg (by simpa using huser)]
      refine ⟨?_, hafter⟩
      rw [repliesTo, if_neg huser, htold]

/-- A reply changes nothing of other users and no copies, and it comes out the same whatever is known
of the others. While users talk and change nothing that they share, nor hand over any objects, each of
them is told the same, and ends up the same, as alone. -/
theorem users_isolated :
    (∀ (b : Bot) (call : Call), (call.reply b).bot.roster.frozen = b.roster.frozen ∧
      ∀ other, other ≠ call.user →
        (call.reply b).bot.roster.profile? other = b.roster.profile? other) ∧
    (∀ (b c : Bot) (call : Call), b.SameTo call.user c →
      (call.reply b).result = (call.reply c).result ∧
        (call.reply b).bot.SameTo call.user (call.reply c).bot) ∧
    ∀ (b c : Bot) (user : Text) (calls : List Call), b.SameTo user c →
      EachCall Unchanged calls b →
      (b.callables.handlers = {} ∨ EachCall SameCallables calls b) →
        repliesTo user calls b = repliesTo user (calls.filter (·.user = user)) c ∧
          (afterCalls calls b).SameTo user (afterCalls (calls.filter (·.user = user)) c) := by
  refine ⟨?_, ?_, ?_⟩
  · intro b call
    exact ⟨b.frozen_reply _ _ _, fun other h => b.profile?_reply_of_ne _ _ h⟩
  · intro b c call h
    exact (unseen_sameTo call.user).reply h h.playbook call.draws call.message
  · intro b c user calls h hunchanged hcallables
    rcases hcallables with hnone | hcallables
    · exact alone_of_eachCall h hunchanged (eachCall_sameCallables hnone)
    · exact alone_of_eachCall h hunchanged hcallables

/-! ### Bots with the usual punctuation -/

/-- All of a playbook but what strips messages, which cannot be compared. -/
structure Data where
  topics : Topics
  ranked : Table (List Text)
  lookbacks : Table (List Lookback)
  arrays : Table (List Text)
  utf8 : Bool
  substitution : Substitution
  person : Substitution
  depth : Nat
  deriving DecidableEq

def data (p : Playbook) : Data :=
  ⟨p.topics, p.ranked, p.lookbacks, p.arrays, p.canon.utf8, p.canon.substitution, p.person, p.depth⟩

/-- Messages are stripped of the usual punctuation, and will be when the bot is sorted again. -/
structure StripsUsual (b : Bot) : Prop where
  chosen : b.settings.punctuation = usualPunctuation
  sorted : ∀ p ∈ b.playbook, p.canon.punctuation = .usual

theorem StripsUsual.change (hb : b.StripsUsual) (h : b.Change c) : c.StripsUsual := by
  cases h with
  | sort hsort =>
    obtain ⟨p, hp, rfl⟩ := Answering.ok_of_map hsort
    refine ⟨hb.chosen, fun q hq => ?_⟩
    obtain rfl := Option.some.inj hq
    rw [Playbook.eq_build hp]
    show b.settings.engine.stripper b.settings.punctuation = .usual
    rw [hb.chosen, Engine.stripper_usual]
  | _ => exact ⟨hb.chosen, hb.sorted⟩

theorem playbook_eq_of_data (hb : b.StripsUsual) (hc : c.StripsUsual)
    (h : c.playbook.map data = b.playbook.map data) : c.playbook = b.playbook := by
  rcases hp : b.playbook with _ | ⟨p⟩
  · rw [hp] at h
    exact Option.map_eq_none_iff.mp h
  · rw [hp] at h
    obtain ⟨q, hq, hdata⟩ := Option.map_eq_some_iff.mp h
    have hstripper := (hc.sorted q hq).trans (hb.sorted p hp).symm
    rcases q with ⟨_, _, _, _, ⟨_, _, _⟩, _, _⟩
    rcases p with ⟨_, _, _, _, ⟨_, _, _⟩, _, _⟩
    cases hdata
    cases hstripper
    exact hq

/-- What can be seen to stay the same by comparing it. -/
def SameData (b c : Bot) : Prop :=
  c.vars = b.vars ∧ c.globals = b.globals ∧ c.script = b.script ∧
    c.playbook.map data = b.playbook.map data

instance : DecidableRel SameData := fun b c =>
  inferInstanceAs (Decidable (c.vars = b.vars ∧ c.globals = b.globals ∧ c.script = b.script ∧
    c.playbook.map data = b.playbook.map data))

theorem eachCall_unchanged {calls : List Call} (hb : b.StripsUsual) (h : EachCall SameData calls b) :
    EachCall Unchanged calls b := by
  induction calls generalizing b with
  | nil => trivial
  | cons call calls ih =>
    obtain ⟨⟨hvars, hglobals, hscript, hdata⟩, hrest⟩ := h
    have hlater := later_reply b call.draws call.user call.message
    have hc : (call.reply b).bot.StripsUsual := hlater.keeps (fun h hb => hb.change h) hb
    exact ⟨⟨hvars, hglobals, hscript, playbook_eq_of_data hb hc hdata⟩, ih hc hrest⟩

def texts (results : List (Except Fault Exchange)) : List (Option Text) :=
  results.map fun result => result.toOption.map Exchange.reply

/-- A bot that remembers how its users feel. -/
def feeling : Bot where
  playbook := some
    { topics := ⟨[("random", { rules := [
        { pattern := "i feel *", replies := ["<set mood=<star>>Okay."] },
        { pattern := "how am i", replies := ["You feel <get mood>."] }] })]⟩
      ranked := ⟨[("random", ["how am i", "i feel *"])]⟩ }

/-- The same bot when it has met somebody else before. -/
def feelingCarol : Bot :=
  feeling.onRoster fun r => (r.setVar "carol" "mood" (some "great")).freeze "carol"

def moods : List Call :=
  [⟨"ann", "I feel fine!", []⟩, ⟨"bob", "I feel bad.", []⟩, ⟨"ann", "How am I?", []⟩,
    ⟨"bob", "How am I?", []⟩]

theorem moods_isolated :
    texts (repliesTo "ann" moods feeling) = [some ("Okay." : Text), some "You feel fine."] ∧
    repliesTo "ann" moods feeling =
      repliesTo "ann" (moods.filter (·.user = "ann")) feelingCarol := by
  have hsame : feeling.SameTo "ann" feelingCarol := ⟨rfl, by decide +kernel⟩
  have hunchanged : EachCall Unchanged moods feeling :=
    eachCall_unchanged ⟨rfl, fun _ hp => Option.some.inj hp ▸ rfl⟩ (by decide +kernel)
  refine ⟨by decide +kernel, ?_⟩
  exact (users_isolated.2.2 feeling feelingCarol "ann" moods hsame hunchanged (.inl rfl)).1

/-- A handler of objects that says what was called, and by whom. -/
def echo : ObjectCall := fun name user _ => name ++ " of " ++ user

/-- A bot that reads an object when it is asked to learn. It cannot be sorted again, so that nothing
else comes of what it reads. -/
def learning : Bot where
  settings := .basic
  script := { topics := ⟨[("random", { rules := [{ pattern := ")a(", replies := ["x"] }] })]⟩ }
  playbook := some
    { topics := ⟨[("random", { rules := [
        { pattern := "learn", replies := ["\x7b!> object foo echo\\nx\\n< object\x7dOkay."] },
        { pattern := "use", replies := ["<call>foo</call>"] }] })]⟩
      ranked := ⟨[("random", ["learn", "use"])]⟩ }
  callables := ({} : Callables).setHandler "echo" echo

def lesson : List Call := [⟨"alice", "learn", []⟩, ⟨"bob", "use", []⟩]

/-- Objects are shared too, but they are no part of the script: what one user has the bot read as an
object can be called by all. -/
theorem objects_not_isolated :
    EachCall Unchanged lesson learning ∧
    texts (repliesTo "bob" lesson learning) = [some ("foo of bob" : Text)] ∧
    texts (repliesTo "bob" (lesson.filter (·.user = "bob")) learning) =
      [some ("[ERR: Object Not Found]" : Text)] := by
  refine ⟨?_, ?_, ?_⟩
  · exact eachCall_unchanged ⟨rfl, fun _ hp => Option.some.inj hp ▸ rfl⟩ (by decide +kernel)
  · decide +kernel
  · decide +kernel

end Bot

end Dialogue
