import Dialogue.Proofs.HotLoad
import Dialogue.Proofs.Pairs

/-! What loading does to replies before the next sorting. Two bots that differ only in what waits to
be sorted answer alike and stay alike, so all that a document does at once is what it sets outside
the script: variables, globals and objects. -/
namespace Dialogue

open Answering

/-- Only what waits to be sorted, and what was sorted, may be different. -/
structure Bot.SameLive (b c : Bot) : Prop where
  settings : b.settings = c.settings
  vars : b.vars = c.vars
  globals : b.globals = c.globals
  roster : b.roster = c.roster
  callables : b.callables = c.callables

namespace Bot.SameLive

variable {b c d : Bot}

theorem refl (b : Bot) : b.SameLive b := ⟨rfl, rfl, rfl, rfl, rfl⟩

theorem symm (h : b.SameLive c) : c.SameLive b :=
  ⟨h.settings.symm, h.vars.symm, h.globals.symm, h.roster.symm, h.callables.symm⟩

theorem trans (h : b.SameLive c) (k : c.SameLive d) : b.SameLive d :=
  ⟨h.settings.trans k.settings, h.vars.trans k.vars, h.globals.trans k.globals,
    h.roster.trans k.roster, h.callables.trans k.callables⟩

theorem alike (h : b.SameLive c) (user : Text) (p : Playbook) : Bot.Alike ⟨user, p⟩ b c :=
  Bot.alike_of h.settings h.vars h.globals h.callables (by rw [h.roster]) p

theorem setVar (h : b.SameLive c) (name : Text) (value : Option Text) :
    (b.setVar name value).SameLive (c.setVar name value) :=
  { h with vars := congrArg (fun vars : Table Text => vars.put name value) h.vars }

theorem setGlobal (h : b.SameLive c) (name : Text) (value : Option Text) :
    (b.setGlobal name value).SameLive (c.setGlobal name value) :=
  { h with globals := congrArg (fun globals : Table Text => globals.put name value) h.globals }

theorem onRoster (h : b.SameLive c) (f : Roster → Roster) :
    (b.onRoster f).SameLive (c.onRoster f) :=
  { h with roster := congrArg f h.roster }

theorem absorb (h : b.SameLive c) (doc : Document) : (b.absorb doc).SameLive (c.absorb doc) where
  settings := h.settings
  vars := congrArg (Table.defineAll · doc.vars) h.vars
  globals := congrArg (Table.defineAll · doc.globals) h.globals
  roster := h.roster
  callables := congrArg (doc.objects.foldl Callables.deliver) h.callables

end Bot.SameLive

namespace Bot

/-- Sorting, whether it succeeds or not, is nothing to the rest of the bot. -/
theorem sameLive_hotLoad (b : Bot) (code : Text) : (b.hotLoad code).2.SameLive
    (((b.stream code).toOption).getD b) := by
  rw [hotLoad]
  cases b.stream code with
  | error fault => exact .refl b
  | ok loaded =>
    dsimp only
    split
    · exact .refl loaded
    · rename_i hsort
      obtain ⟨p, -, rfl⟩ := ok_of_map hsort
      exact ⟨rfl, rfl, rfl, rfl, rfl⟩

theorem SameLive.hotLoad {b c : Bot} (h : b.SameLive c) (code : Text) :
    (b.hotLoad code).2.SameLive (c.hotLoad code).2 := by
  have hstream : ((b.stream code).toOption.getD b).SameLive ((c.stream code).toOption.getD c) := by
    rw [stream, stream, load, load, h.settings]
    cases Document.ofText c.settings "stream()" code with
    | error fault => exact h
    | ok doc => exact h.absorb doc
  exact (b.sameLive_hotLoad code).trans (hstream.trans (c.sameLive_hotLoad code).symm)

/-- No reply sees what waits to be sorted. -/
theorem unseen_sameLive (user : Text) : Unseen user SameLive where
  setback h := setbackResult_congr h.settings
  alike h p := h.alike user p
  alter h _ := h.onRoster _
  setVar h := h.setVar
  setGlobal h := h.setGlobal
  hotLoad h := h.hotLoad

/-- Bots with one playbook that differ only in what waits to be sorted. -/
theorem SameLive.reply {b c : Bot} (h : b.SameLive c) (hp : b.playbook = c.playbook)
    (draws : List Nat) (user message : Text) :
    (b.reply draws user message).result = (c.reply draws user message).result ∧
      (b.reply draws user message).bot.SameLive (c.reply draws user message).bot :=
  (unseen_sameLive user).reply h hp draws message

/-- What a document sets outside the script. -/
def define (b : Bot) (doc : Document) : Bot :=
  { b with
    vars := b.vars.defineAll doc.vars
    globals := b.globals.defineAll doc.globals
    callables := doc.objects.foldl Callables.deliver b.callables }

theorem sameLive_absorb (b : Bot) (doc : Document) : (b.absorb doc).SameLive (b.define doc) :=
  ⟨rfl, rfl, rfl, rfl, rfl⟩

theorem deliverAll_of_unhandled {c : Callables} {objects : List ObjectSource}
    (h : ∀ o ∈ objects, c.handlers.find? o.language = none) :
    objects.foldl Callables.deliver c = c := by
  induction objects with
  | nil => rfl
  | cons o objects ih =>
    rw [List.forall_mem_cons] at h
    have hdrop : c.deliver o = c := by
      rw [Callables.deliver, h.1]
    rw [List.foldl_cons, hdrop]
    exact ih h.2

variable {b c : Bot} {code : Text}

/-- Rules, arrays and substitutions wait for the next sorting. Until then a bot replies as if only
the variables, the globals and the objects of the code were there, and just as before if it has
none that make a difference. -/
theorem reply_before_sort (h : b.stream code = .ok c) :
    ∃ doc, Document.ofText b.settings "stream()" code = .ok doc ∧
      (∀ draws user message,
        (c.reply draws user message).result = ((b.define doc).reply draws user message).result ∧
          (c.reply draws user message).bot.SameLive ((b.define doc).reply draws user message).bot) ∧
      (b.vars.defineAll doc.vars = b.vars → b.globals.defineAll doc.globals = b.globals →
        (∀ o ∈ doc.objects, b.callables.handlers.find? o.language = none) →
        ∀ draws user message,
          (c.reply draws user message).result = (b.reply draws user message).result ∧
            (c.reply draws user message).bot.SameLive (b.reply draws user message).bot) := by
  obtain ⟨doc, hdoc, rfl⟩ := ok_of_map h
  refine ⟨doc, hdoc, fun draws user message => ?_, fun hvars hglobals hobjects draws user message => ?_⟩
  · exact (b.sameLive_absorb doc).reply rfl draws user message
  · have hlive : (b.absorb doc).SameLive b :=
      ⟨rfl, hvars, hglobals, rfl, deliverAll_of_unhandled hobjects⟩
    exact hlive.reply rfl draws user message

/-- A bot that tells its name. -/
def nameless : Bot where
  playbook := some
    { topics := ⟨[("random", { rules := [{ pattern := "hi", replies := ["I am <bot name>."] }] })]⟩
      ranked := ⟨[("random", ["hi"])]⟩ }

def naming : Text := "! var name = Bob\n"

theorem stream_naming :
    nameless.stream naming = .ok (nameless.absorb { vars := [("name", "Bob")] }) := by
  have hread : Document.ofText nameless.settings "stream()" naming =
      .ok { vars := [("name", "Bob")] } := ok_of_toOption (by decide +kernel)
  rw [stream, load, hread]
  rfl

def rewording : Text := "+ hi\n- Hello.\n! array names = bob\n"

def rewordingDocument : Document where
  arrays := [("names", ["bob"])]
  topics := ⟨[("random", { rules := [{ pattern := "hi", replies := ["Hello."] }] })]⟩

theorem ofText_rewording :
    Document.ofText nameless.settings "stream()" rewording = .ok rewordingDocument :=
  ok_of_toOption (by decide +kernel)

theorem stream_rewording :
    nameless.stream rewording = .ok (nameless.absorb rewordingDocument) := by
  rw [stream, load, ofText_rewording]
  rfl

/-- A new rule and an array make no difference. -/
theorem nameless_reply_before_sort :
    ∃ c, nameless.stream rewording = .ok c ∧ c.script.topics ≠ nameless.script.topics ∧
      told (nameless.reply [] "user" "Hi!") = some ("I am undefined." : Text) ∧
      told (c.reply [] "user" "Hi!") = some ("I am undefined." : Text) ∧
      (c.reply [] "user" "Hi!").bot.roster = (nameless.reply [] "user" "Hi!").bot.roster := by
  have hbefore : told (nameless.reply [] "user" "Hi!") = some ("I am undefined." : Text) := by
    decide +kernel
  obtain ⟨doc, hdoc, -, hsame⟩ := reply_before_sort stream_rewording
  rw [ofText_rewording] at hdoc
  cases hdoc
  obtain ⟨hresult, hlive⟩ := hsame rfl rfl (fun _ ho => nomatch ho) [] "user" "Hi!"
  refine ⟨_, stream_rewording, by decide, hbefore, ?_, hlive.roster⟩
  rw [told, hresult]
  exact hbefore

/-- A bot that has a name from a script uses it at once. -/
theorem loaded_name_is_told :
    ∃ c, nameless.stream naming = .ok c ∧
      told (nameless.reply [] "user" "Hi!") = some ("I am undefined." : Text) ∧
      told (c.reply [] "user" "Hi!") = some ("I am Bob." : Text) := by
  refine ⟨_, stream_naming, ?_, ?_⟩
  · decide +kernel
  · decide +kernel

end Bot

end Dialogue
