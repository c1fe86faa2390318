import Dialogue.Proofs.Users

/-! Using a bot. Its owner loads, sorts and asks for replies in any order, and whoever keeps its users
works on them in between. All of this is a run of operations, and for the users it comes down to the
few things that are done with a roster. -/
namespace Dialogue.Bot

/-- Everything that can be done with a bot. What fails is an operation too. -/
inductive Operation where
  | stream (code : Text)
  | loadFile (files : Files) (path : Text)
  | loadDirectory (files : Files) (path : Text)
  | sort
  | reply (draws : List Nat) (user message : Text)
  | setVar (name : Text) (value : Option Text)
  | setGlobal (name : Text) (value : Option Text)
  | setSubstitution (name : Text) (value : Option Text)
  | setPerson (name : Text) (value : Option Text)
  | setHandler (language : Text) (call : ObjectCall)
  | removeHandler (language : Text)
  | setSubroutine (name : Text) (subroutine : Subroutine)
  | removeSubroutine (name : Text)
  | users (op : Roster.Operation)

namespace Operation

def perform : Operation → Bot → Bot
  | stream code, b => (b.stream code).toOption.getD b
  | loadFile files path, b => (b.loadFile files path).toOption.getD b
  | loadDirectory files path, b => (b.loadDirectory files path).2
  | sort, b => b.sort.toOption.getD b
  | reply draws user message, b => (b.reply draws user message).bot
  | setVar name value, b => b.setVar name value
  | setGlobal name value, b => b.setGlobal name value
  | setSubstitution name value, b => b.setSubstitution name value
  | setPerson name value, b => b.setPerson name value
  | setHandler language call, b => b.onCallables (·.setHandler language call)
  | removeHandler language, b => b.onCallables (·.removeHandler language)
  | setSubroutine name s, b => b.onCallables (·.setSubroutine name s)
  | removeSubroutine name, b => b.onCallables (·.removeSubroutine name)
  | users op, b => b.onRoster op.perform

/-- The exchange with a user that an operation completes. -/
def exchange? (user : Text) (b : Bot) : Operation → Option (Text × Text)
  | reply draws other message => if other = user then b.exchange? draws user message else none
  | _ => none

end Operation

def performAll (ops : List Operation) (b : Bot) : Bot := ops.foldl (fun b op => op.perform b) b

/-- What can become of a bot that knows nothing but how its owner chose it. -/
def Reachable (b : Bot) : Prop := ∃ settings ops, b = performAll ops { settings }

variable {b c : Bot}

theorem Reachable.performAll (h : b.Reachable) (ops : List Operation) :
    (b.performAll ops).Reachable := by
  obtain ⟨settings, before, rfl⟩ := h
  exact ⟨settings, before ++ ops, by rw [Bot.performAll, Bot.performAll, Bot.performAll,
    List.foldl_append]⟩

/-! ### Loading is nothing to the users -/

theorem roster_load {source code : Text} (h : b.load source code = .ok c) :
    c.roster = b.roster := by
  obtain ⟨doc, -, rfl⟩ := Answering.ok_of_map h
  rfl

theorem roster_loadFile {files : Files} {path : Text} (h : b.loadFile files path = .ok c) :
    c.roster = b.roster := by
  rw [loadFile] at h
  split at h
  · cases h
  · exact roster_load h

theorem roster_loadFiles (files : Files) (paths : List Text) (b : Bot) :
    (loadFiles files paths b).2.roster = b.roster := by
  induction paths generalizing b with
  | nil => rfl
  | cons path paths ih =>
    rw [loadFiles]
    split
    · rfl
    · rename_i c hload
      exact (ih c).trans (roster_loadFile hload)

theorem roster_sort (h : b.sort = .ok c) : c.roster = b.roster := by
  obtain ⟨p, -, rfl⟩ := Answering.ok_of_map h
  rfl

theorem roster_getD {result : Except Fault Bot} (h : ∀ c, result = .ok c → c.roster = b.roster) :
    (result.toOption.getD b).roster = b.roster := by
  cases result with
  | error fault => rfl
  | ok c => exact h c rfl

/-! ### What is done with the users -/

namespace Operation

/-- What is neither a reply nor done to the users leaves them alone. -/
theorem roster_perform (op : Operation) (b : Bot) :
    (∃ o, op = users o) ∨ (∃ draws user message, op = reply draws user message) ∨
    ((op.perform b).roster = b.roster ∧ ∀ user, op.exchange? user b = none) := by
  cases op with
  | users o => exact .inl ⟨o, rfl⟩
  | reply draws user message => exact .inr (.inl ⟨draws, user, message, rfl⟩)
  | stream code => exact .inr (.inr ⟨roster_getD fun c hc => roster_load hc, fun _ => rfl⟩)
  | loadFile files path =>
    exact .inr (.inr ⟨roster_getD fun c hc => roster_loadFile hc, fun _ => rfl⟩)
  | loadDirectory files path =>
    refine .inr (.inr ⟨?_, fun _ => rfl⟩)
    rw [perform, Bot.loadDirectory]
    split
    · rfl
    · exact roster_loadFiles files _ b
  | sort => exact .inr (.inr ⟨roster_getD fun c hc => roster_sort hc, fun _ => rfl⟩)
  | _ => exact .inr (.inr ⟨rfl, fun _ => rfl⟩)

end Operation

/-- What is kept by the operations on users that may be done, and by what a reply touches, is kept by
a whole run. A reply is remembered as if it was put on record by hand. -/
theorem roster_performAll {I : Roster → Prop} {M : Roster.Operation → Prop}
    (hmay : ∀ op r, M op → I r → I (op.perform r))
    (htouched : ∀ {user r s}, Roster.Touched user r s → I r → I s)
    (hrecord : ∀ user input reply, M (.record user input reply)) {ops : List Operation}
    (hops : ∀ op, .users op ∈ ops → M op) (hb : I b.roster) : I (b.performAll ops).roster := by
  induction ops generalizing b with
  | nil => exact hb
  | cons op ops ih =>
    refine ih (fun o ho => hops o (List.mem_cons_of_mem _ ho)) ?_
    rcases op.roster_perform b with ⟨o, rfl⟩ | ⟨draws, user, message, rfl⟩ | ⟨hsame, -⟩
    · exact hmay o _ (hops o List.mem_cons_self) hb
    · obtain ⟨r, hr, heq⟩ := b.roster_reply draws user message
      have hI : I r := htouched hr hb
      show I (b.reply draws user message).bot.roster
      rw [heq]
      cases b.exchange? draws user message with
      | none => exact hI
      | some e => exact hmay (.record user e.1 e.2) r (hrecord user e.1 e.2) hI
    · rw [hsame]
      exact hb

end Dialogue.Bot
