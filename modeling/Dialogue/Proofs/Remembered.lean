import Dialogue.Proofs.Usage

/-! What the history of a user holds. It always has its full length, and while nobody rewrites it from
outside it gets one entry for each exchange that was completed, and nothing else. -/
namespace Dialogue

namespace History

/-- Both lists have all their places. -/
structure Full (h : History) : Prop where
  inputs : h.inputs.length = size
  replies : h.replies.length = size

theorem full_new : Full {} := ⟨rfl, rfl⟩

theorem Full.record {h : History} (hh : h.Full) (input reply : Text) : (h.record input reply).Full :=
  have hlength := length_record h input reply hh.inputs hh.replies
  ⟨hlength.1, hlength.2⟩

/-- Exchanges are recorded one after the other. -/
def recordAll (exchanges : List (Text × Text)) (h : History) : History :=
  exchanges.foldl (fun h e => h.record e.1 e.2) h

theorem take_append_take {α : Type} (xs ys : List α) (n : Nat) :
    (xs ++ ys.take n).take n = (xs ++ ys).take n := by
  rw [List.take_append, List.take_append, List.take_take, Nat.min_eq_left (Nat.sub_le _ _)]

/-- The latest exchanges come first, then what there was before, as far as there is room. -/
theorem recordAll_eq {h : History} (hh : h.Full) (exchanges : List (Text × Text)) :
    (recordAll exchanges h).inputs = ((exchanges.map Prod.fst).reverse ++ h.inputs).take size ∧
    (recordAll exchanges h).replies = ((exchanges.map Prod.snd).reverse ++ h.replies).take size := by
  induction exchanges generalizing h with
  | nil =>
    constructor
    · exact (List.take_of_length_le (Nat.le_of_eq hh.inputs)).symm
    · exact (List.take_of_length_le (Nat.le_of_eq hh.replies)).symm
  | cons e exchanges ih =>
    obtain ⟨hinputs, hreplies⟩ := ih (hh.record e.1 e.2)
    constructor
    · calc (recordAll (e :: exchanges) h).inputs
          = ((exchanges.map Prod.fst).reverse ++ (e.1 :: h.inputs).take size).take size := hinputs
        _ = ((exchanges.map Prod.fst).reverse ++ e.1 :: h.inputs).take size :=
            take_append_take _ _ _
        _ = (((e :: exchanges).map Prod.fst).reverse ++ h.inputs).take size := by simp
    · calc (recordAll (e :: exchanges) h).replies
          = ((exchanges.map Prod.snd).reverse ++ (e.2 :: h.replies).take size).take size := hreplies
        _ = ((exchanges.map Prod.snd).reverse ++ e.2 :: h.replies).take size :=
            take_append_take _ _ _
        _ = (((e :: exchanges).map Prod.snd).reverse ++ h.replies).take size := by simp

end History

namespace Roster

/-- Of everybody known and of every copy, the history has its full length. -/
structure Full (r : Roster) : Prop where
  users : ∀ user p, r.profile? user = some p → p.history.Full
  frozen : ∀ user p, r.frozen.find? user = some p → p.history.Full

variable {r s : Roster}

theorem full_new : Full {} := ⟨fun _ _ h => (nomatch h), fun _ _ h => (nomatch h)⟩

theorem Full.history (hr : r.Full) (user : Text) : (r.history user).Full := by
  rw [Roster.history]
  cases hp : r.profile? user with
  | none => exact History.full_new
  | some p => exact hr.users user p hp

theorem Full.alter (hr : r.Full) (user : Text) {f : Profile → Profile}
    (hf : ∀ p, p.history.Full → (f p).history.Full) : (r.alter user f).Full where
  users other p h := by
    rw [profile?_alter] at h
    split at h
    · cases h
      refine hf _ ?_
      rw [← history_eq]
      exact hr.history user
    · exact hr.users other p h
  frozen := hr.frozen

theorem Full.touched {user : Text} (h : r.Touched user s) (hr : r.Full) : s.Full where
  users other p hp := by
    by_cases hother : other = user
    · subst hother
      have hhistory := h.history
      rw [Roster.history, hp] at hhistory
      have hfull : (r.history other).Full := hr.history other
      rw [← hhistory] at hfull
      exact hfull
    · rw [h.others other hother] at hp
      exact hr.users other p hp
  frozen := h.frozen ▸ hr.frozen

theorem Full.setVars (hr : r.Full) (user : Text) (vars : List (Text × Text)) :
    (r.setVars user vars).Full := by
  induction vars generalizing r with
  | nil => exact hr
  | cons v vars ih => exact ih (hr.alter user fun _ h => h)

theorem Full.perform (op : Operation) (r : Roster) (hr : r.Full) : (op.perform r).Full := by
  cases op with
  | welcome user | setVar user | setLastMatch user => exact hr.alter user fun _ h => h
  | setVars user vars => exact hr.setVars user vars
  | record user input reply => exact hr.alter user fun _ h => h.record input reply
  | clear user =>
    constructor
    · intro other p h
      exact hr.users other p (Table.find?_of_erase h)
    · intro other p h
      exact hr.frozen other p (Table.find?_of_erase h)
  | clearAll => exact full_new
  | freeze user =>
    simp only [Operation.perform, Roster.freeze]
    cases hp : r.profile? user with
    | none => exact hr
    | some p =>
      refine ⟨hr.users, fun other q h => ?_⟩
      rcases Table.find?_of_set h with ⟨-, rfl⟩ | h
      · exact hr.users user p hp
      · exact hr.frozen other q h
  | thaw user action =>
    simp only [Operation.perform, Roster.thaw]
    cases hp : r.frozen.find? user with
    | none => exact hr
    | some p =>
      have hset : ∀ other q, (r.users.set user p).find? other = some q → q.history.Full := by
        intro other q h
        rcases Table.find?_of_set h with ⟨-, rfl⟩ | h
        · exact hr.frozen user p hp
        · exact hr.users other q h
      have herase : ∀ other q, (r.frozen.erase user).find? other = some q → q.history.Full :=
        fun other q h => hr.frozen other q (Table.find?_of_erase h)
      cases action with
      | restore => exact ⟨hset, herase⟩
      | discard => exact ⟨hr.users, herase⟩
      | keep => exact ⟨hset, hr.frozen⟩

/-- An operation on the history of a user other than by a reply: a record made by hand, or a profile
that comes from elsewhere. -/
def Operation.RewritesHistory (user : Text) : Operation → Prop
  | record other _ _ | clear other | thaw other _ => other = user
  | clearAll => True
  | _ => False

theorem history_alter (r : Roster) {f : Profile → Profile} (hf : ∀ p, (f p).history = p.history)
    (other user : Text) : (r.alter other f).history user = r.history user := by
  by_cases hother : user = other
  · rw [hother]
    exact (Touched.alter hf).history
  · exact (Touched.alter hf).history_of_ne hother

theorem history_setVar (r : Roster) (other user name : Text) (value : Option Text) :
    (r.setVar other name value).history user = r.history user := by
  apply history_alter
  intro p
  rfl

theorem history_setLastMatch (r : Roster) (other user pattern : Text) :
    (r.setLastMatch other pattern).history user = r.history user := by
  apply history_alter
  intro p
  rfl

theorem history_setVars (r : Roster) (other user : Text) (vars : List (Text × Text)) :
    (r.setVars other vars).history user = r.history user := by
  induction vars generalizing r with
  | nil => rfl
  | cons v vars ih =>
    calc ((r.setVar other v.1 (some v.2)).setVars other vars).history user
        = (r.setVar other v.1 (some v.2)).history user := ih _
      _ = r.history user := r.history_setVar other user _ _

theorem history_perform {op : Operation} {user : Text} (h : ¬ op.RewritesHistory user) (r : Roster) :
    (op.perform r).history user = r.history user := by
  by_cases hconcerns : op.Concerns user
  · cases op with
    | welcome other => exact r.history_alter (fun _ => rfl) other user
    | setVar other name value => exact r.history_setVar other user name value
    | setLastMatch other pattern => exact r.history_setLastMatch other user pattern
    | setVars other vars => exact r.history_setVars other user vars
    | freeze other =>
      simp only [Operation.perform, freeze]
      split <;> rfl
    | record | clear | clearAll | thaw => exact absurd hconcerns h
  · rw [history, history, (sameFor_perform _ hconcerns r).profile?]

theorem history_remember {r s : Roster} {user : Text} (h : r.Touched user s)
    (exchange : Option (Text × Text)) : (Bot.remember s user exchange).history user =
      (r.history user).recordAll exchange.toList := by
  rw [← h.history]
  cases exchange with
  | none => rfl
  | some e =>
    rw [Bot.remember, Roster.record, history_eq, profile, profile?_alter_self, history_eq]
    rfl

theorem history_remember_of_ne {r s : Roster} {other user : Text} (h : r.Touched other s)
    (hne : user ≠ other) (exchange : Option (Text × Text)) :
    (Bot.remember s other exchange).history user = r.history user := by
  rw [← h.history_of_ne hne]
  cases exchange with
  | none => rfl
  | some e => rw [Bot.remember, Roster.record, history, profile?_alter_of_ne _ _ hne, history]

end Roster

namespace Bot

variable {b : Bot} {user : Text}

def Operation.RewritesHistory (user : Text) : Operation → Prop
  | users op => op.RewritesHistory user
  | _ => False

/-- One operation completes one exchange with a user at most, and that is what is recorded. -/
theorem Operation.history_perform {op : Operation} (h : ¬ op.RewritesHistory user) (b : Bot) :
    (op.perform b).roster.history user =
      (b.roster.history user).recordAll (op.exchange? user b).toList := by
  rcases op.roster_perform b with ⟨o, rfl⟩ | ⟨draws, other, message, rfl⟩ | ⟨hsame, hnone⟩
  · exact Roster.history_perform h b.roster
  · obtain ⟨r, hr, heq⟩ := b.roster_reply draws other message
    show (b.reply draws other message).bot.roster.history user = _
    rw [heq, Operation.exchange?]
    by_cases hother : other = user
    · subst hother
      rw [if_pos rfl]
      exact Roster.history_remember hr _
    · rw [if_neg hother]
      exact Roster.history_remember_of_ne hr (Ne.symm hother) _
  · rw [hsame, hnone user]
    rfl

/-- The exchanges with a user that a run completes, the earliest first. -/
def exchanges (user : Text) : List Operation → Bot → List (Text × Text)
  | [], _ => []
  | op :: ops, b => (op.exchange? user b).toList ++ exchanges user ops (op.perform b)

theorem history_performAll {ops : List Operation} (h : ∀ op ∈ ops, ¬ op.RewritesHistory user)
    (b : Bot) : (b.performAll ops).roster.history user =
      (b.roster.history user).recordAll (exchanges user ops b) := by
  induction ops generalizing b with
  | nil => rfl
  | cons op ops ih =>
    rw [List.forall_mem_cons] at h
    calc ((op.perform b).performAll ops).roster.history user
        = ((op.perform b).roster.history user).recordAll (exchanges user ops (op.perform b)) :=
          ih h.2 _
      _ = ((b.roster.history user).recordAll (op.exchange? user b).toList).recordAll
            (exchanges user ops (op.perform b)) := by rw [op.history_perform h.1]
      _ = (b.roster.history user).recordAll (exchanges user (op :: ops) b) := by
          rw [exchanges, History.recordAll, History.recordAll, History.recordAll, List.foldl_append]

theorem Reachable.full (h : b.Reachable) : b.roster.Full := by
  obtain ⟨settings, ops, rfl⟩ := h
  exact roster_performAll (M := fun _ => True) (fun op r _ => Roster.Full.perform op r)
    Roster.Full.touched (fun _ _ _ => trivial) (fun _ _ => trivial) Roster.full_new

/-- A history is nine entries long, and while nobody rewrites it, a run adds the exchanges that it
completes with the user. What completes none leaves it as it is. -/
theorem history_holds_exchanges (hb : b.Reachable) :
    (∀ user p, b.roster.profile? user = some p →
      p.history.inputs.length = 9 ∧ p.history.replies.length = 9) ∧
    (∀ user ops, (∀ op ∈ ops, ¬ op.RewritesHistory user) →
      ((b.performAll ops).roster.history user).inputs =
        (((exchanges user ops b).map Prod.fst).reverse ++ (b.roster.history user).inputs).take 9 ∧
      ((b.performAll ops).roster.history user).replies =
        (((exchanges user ops b).map Prod.snd).reverse ++ (b.roster.history user).replies).take 9) ∧
    ∀ user (op : Operation), ¬ op.RewritesHistory user → op.exchange? user b = none →
      (op.perform b).roster.history user = b.roster.history user := by
  refine ⟨?_, ?_, ?_⟩
  · intro user p hp
    have hfull := hb.full.users user p hp
    exact ⟨hfull.inputs, hfull.replies⟩
  · intro user ops hops
    rw [history_performAll hops]
    exact History.recordAll_eq (hb.full.history user) _
  · intro user op hop hnone
    rw [op.history_perform hop, hnone]
    rfl

def greetingRules : List Operation := [.stream "+ hi\n- Hello.\n", .sort]

/-- Two replies, one of them to somebody else, and things that are no replies. -/
def smallTalk : List Operation :=
  [.reply [] "ann" "What?", .users (.setVar "ann" "mood" (some "good")),
    .reply [] "bob" "Hi.", .stream "+ bye\n- Bye.\n", .users (.freeze "ann"), .reply [] "ann" "Hi!"]

theorem greeting_remembered :
    ((performAll smallTalk (performAll greetingRules {})).roster.history "ann").inputs =
      [("hi" : Text), "what"] ++ List.replicate 7 undefinedText ∧
    ((performAll smallTalk (performAll greetingRules {})).roster.history "ann").replies =
      [("Hello." : Text), "ERR: No Reply Matched"] ++ List.replicate 7 undefinedText := by
  have hreachable : (performAll greetingRules {}).Reachable := ⟨{}, greetingRules, rfl⟩
  have hfree : ∀ op ∈ smallTalk, ¬ op.RewritesHistory "ann" := by
    simp [smallTalk, Operation.RewritesHistory, Roster.Operation.RewritesHistory]
  have hexchanges : exchanges "ann" smallTalk (performAll greetingRules {}) =
      ([("what", "ERR: No Reply Matched"), ("hi", "Hello.")] : List (Text × Text)) := by
    decide +kernel
  have hnew : (performAll greetingRules {}).roster.history "ann" = {} := by
    decide +kernel
  obtain ⟨hinputs, hreplies⟩ := (history_holds_exchanges hreachable).2.1 "ann" smallTalk hfree
  rw [hexchanges, hnew] at hinputs hreplies
  exact ⟨hinputs, hreplies⟩

end Bot

end Dialogue
