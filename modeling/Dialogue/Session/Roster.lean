import Dialogue.Session.History
import Dialogue.Topic.Basic

/-! What is remembered about each user. -/
namespace Dialogue

structure Profile where
  vars : Table Text := ⟨[("topic", Topic.default)]⟩
  /-- The trigger that answered last; empty if none did. -/
  lastMatch : Text := []
  history : History := {}
  deriving DecidableEq, Repr

inductive Thaw where
  /-- The copy is restored and given up. -/
  | restore
  /-- The copy is given up. -/
  | discard
  /-- The copy is restored and kept. -/
  | keep
  deriving DecidableEq, Repr

structure Roster where
  users : Table Profile := {}
  frozen : Table Profile := {}
  deriving DecidableEq, Repr

namespace Roster

/-- Changes a profile, which comes into being when the user is first seen. -/
def alter (r : Roster) (user : Text) (f : Profile → Profile) : Roster :=
  { r with users := r.users.alter user {} f }

def welcome (r : Roster) (user : Text) : Roster := r.alter user id

def profile? (r : Roster) (user : Text) : Option Profile := r.users.find? user

def setVar (r : Roster) (user name : Text) (value : Option Text) : Roster :=
  r.alter user fun p => { p with vars := p.vars.put name value }

def setVars (r : Roster) (user : Text) (vars : List (Text × Text)) : Roster :=
  vars.foldl (fun r v => r.setVar user v.1 (some v.2)) r

def var? (r : Roster) (user name : Text) : Option Text :=
  (r.profile? user).bind (·.vars.find? name)

def setLastMatch (r : Roster) (user pattern : Text) : Roster :=
  r.alter user fun p => { p with lastMatch := pattern }

def record (r : Roster) (user input reply : Text) : Roster :=
  r.alter user fun p => { p with history := p.history.record input reply }

def history (r : Roster) (user : Text) : History := ((r.profile? user).map (·.history)).getD {}

/-- Forgets a user, copies included. -/
def clear (r : Roster) (user : Text) : Roster := ⟨r.users.erase user, r.frozen.erase user⟩

def freeze (r : Roster) (user : Text) : Roster :=
  match r.profile? user with
  | some p => { r with frozen := r.frozen.set user p }
  | none => r

/-- Nothing happens without a copy. -/
def thaw (r : Roster) (user : Text) (action : Thaw) : Roster :=
  match r.frozen.find? user with
  | none => r
  | some p =>
    match action with
    | .restore => ⟨r.users.set user p, r.frozen.erase user⟩
    | .discard => { r with frozen := r.frozen.erase user }
    | .keep => { r with users := r.users.set user p }

end Roster

end Dialogue
