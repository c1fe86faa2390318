import Dialogue.Proofs.Settled
import Dialogue.Proofs.Users

/-! What a tag does. It assigns one variable or none, and what takes its place is a value that is looked
up, a text of the bot, or what is made of tags that are not known. -/
namespace Dialogue

open Text Answering

/-! ### Variables -/

/-- Whose a variable is: the bot's, everybody's, or a user's. -/
inductive Holder where
  | bot
  | all
  | user (name : Text)
  deriving DecidableEq, Repr

structure Assignment where
  holder : Holder
  name : Text
  value : Text
  deriving DecidableEq, Repr

namespace Bot

def assign (b : Bot) (x : Assignment) : Bot :=
  match x.holder with
  | .bot => b.setVar x.name (some x.value)
  | .all => b.setGlobal x.name (some x.value)
  | .user user => b.onRoster (·.setVar user x.name (some x.value))

/-- A user who has not been seen yet has what a new one has. -/
def value? (b : Bot) (holder : Holder) (name : Text) : Option Text :=
  match holder with
  | .bot => b.vars.find? name
  | .all => b.globals.find? name
  | .user user => (b.roster.profile user).vars.find? name

/-- Every variable and its value are as they should be. -/
structure Holds (P : Text → Text → Prop) (b : Bot) : Prop where
  vars : ∀ name value, b.vars.find? name = some value → P name value
  globals : ∀ name value, b.globals.find? name = some value → P name value
  users : ∀ user name value, b.roster.var? user name = some value → P name value

variable {P : Text → Text → Prop} {b : Bot}

theorem settings_assign (x : Assignment) : (b.assign x).settings = b.settings := by
  rw [assign]
  split <;> rfl

theorem value?_assign (x : Assignment) (holder : Holder) (name : Text) :
    (b.assign x).value? holder name =
      if holder = x.holder ∧ name = x.name then some x.value else b.value? holder name := by
  obtain ⟨held, key, value⟩ := x
  have hset : ∀ t : Table Text, (t.set key value).find? name =
      if name = key then some value else t.find? name := fun t => Table.find?_alter t ..
  cases held <;> cases holder
  case bot.bot =>
    show (b.vars.set key value).find? name = _
    simpa [value?] using hset b.vars
  case all.all =>
    show (b.globals.set key value).find? name = _
    simpa [value?] using hset b.globals
  case user.user user other =>
    show ((b.roster.setVar user key (some value)).profile other).vars.find? name = _
    rw [Roster.profile, Roster.setVar, Roster.profile?_alter]
    by_cases hother : other = user
    · subst other
      rw [if_pos rfl]
      simpa [value?, Table.put] using hset (b.roster.profile user).vars
    · rw [if_neg hother, if_neg fun h => hother (Holder.user.inj h.1)]
      rfl
  all_goals
    rw [if_neg fun h => Holder.noConfusion h.1]
    rfl

theorem of_new {name value : Text} (h : ({} : Profile).vars.find? name = some value) :
    name = "topic" ∧ value = Topic.default := by
  have hlookup : List.lookup name [(("topic" : Text), Topic.default)] = some value := h
  rw [List.lookup_cons] at hlookup
  split at hlookup
  · rename_i heq
    exact ⟨beq_iff_eq.mp heq, (Option.some.inj hlookup).symm⟩
  · cases hlookup

theorem holds_iff (htopic : P "topic" Topic.default) :
    b.Holds P ↔ ∀ holder name value, b.value? holder name = some value → P name value := by
  constructor
  · intro h holder name value hvalue
    cases holder with
    | bot => exact h.vars name value hvalue
    | all => exact h.globals name value hvalue
    | user user =>
      rw [value?, Roster.profile] at hvalue
      cases hprofile : b.roster.profile? user with
      | some profile =>
        rw [hprofile] at hvalue
        refine h.users user name value ?_
        rw [Roster.var?, hprofile]
        exact hvalue
      | none =>
        rw [hprofile] at hvalue
        obtain ⟨rfl, rfl⟩ := of_new hvalue
        exact htopic
  · intro h
    refine ⟨h .bot, h .all, fun user name value hvalue => h (.user user) name value ?_⟩
    obtain ⟨profile, hprofile, hfind⟩ := Option.bind_eq_some_iff.mp hvalue
    rw [value?, Roster.profile, hprofile]
    exact hfind

/-- All variables are as they should be after an assignment if this one is. -/
theorem holds_assign (h : b.Holds P) (htopic : P "topic" Topic.default) (x : Assignment) :
    (b.assign x).Holds P ↔ P x.name x.value := by
  rw [holds_iff htopic] at h ⊢
  constructor
  · intro hassign
    refine hassign x.holder x.name x.value ?_
    rw [value?_assign, if_pos ⟨rfl, rfl⟩]
  · intro hx holder name value hvalue
    rw [value?_assign] at hvalue
    split at hvalue
    · rename_i heq
      rw [heq.2, ← Option.some.inj hvalue]
      exact hx
    · exact h holder name value hvalue

end Bot

/-! ### Tags -/

namespace Variable

/-- Which variable a tag assigns, and its new value. -/
def assigned? (user : Text) (b : Bot) (body : Text) : Option Assignment :=
  let (kind, data) := split body
  (assignment? data).bind fun (name, value) =>
    if kind = "bot" then some ⟨.bot, name, value⟩
    else if kind = "env" then some ⟨.all, name, value⟩
    else if kind = "set" then some ⟨.user user, name, value⟩
    else (Operation.all.lookup kind).bind fun op =>
      (op.apply (b.roster.var? user name) value).toOption.map fun result =>
        ⟨.user user, name, Numeral.ofInt result⟩

def afterTag (user : Text) (b : Bot) (body : Text) : Bot :=
  match assigned? user b body with
  | some x => b.assign x
  | none => b

/-- What can take the place of a tag. -/
inductive Shown (user : Text) (other : Text → Text) (body : Text) (b : Bot) : Text → Prop where
  | nothing : Shown user other body b []
  | undefined : Shown user other body b undefinedText
  | botVar {name value : Text} : b.vars.find? name = some value → Shown user other body b value
  | global {name value : Text} : b.globals.find? name = some value → Shown user other body b value
  | userVar {name value : Text} : b.roster.var? user name = some value → Shown user other body b value
  | fault (fault : MathFault) : Shown user other body b (fault.text b.settings.wording)
  | unknown : (split body).1 ∉ names → Shown user other body b (other body)

theorem shown_getD {user : Text} {other : Text → Text} {body : Text} {b : Bot} {found : Option Text}
    (h : ∀ value, found = some value → Shown user other body b value) :
    Shown user other body b (found.getD undefinedText) := by
  cases found with
  | none => exact .undefined
  | some value => exact h value rfl

theorem run_botVariable (table : Bot → Table Text) (set : Text → Option Text → Bot → Bot) (data : Text)
    (p : Process) : (botVariable table set data).run.run p = match assignment? data with
      | some (name, value) => (.ok [], { p with bot := set name (some value) p.bot })
      | none => (.ok (((table p.bot).find? data).getD undefinedText), p) := by
  rw [botVariable]
  cases assignment? data <;> rfl

theorem run_math (user : Text) (op : Operation) (data : Text) (p : Process) :
    (math user op data).run.run p = match assignment? data with
      | some (name, value) =>
        match op.apply (p.bot.roster.var? user name) value with
        | .ok result => (.ok [],
          { p with bot := p.bot.assign ⟨.user user, name, Numeral.ofInt result⟩ })
        | .error fault => (.ok (fault.text p.bot.settings.wording), p)
      | none => (.ok [], p) := by
  rw [math]
  cases assignment? data with
  | none => rfl
  | some found =>
    obtain ⟨name, value⟩ := found
    dsimp only
    rw [run_bot]
    cases op.apply (p.bot.roster.var? user name) value <;> rfl

/-- A tag never ends in a fault. It does its assignment and shows something. -/
theorem run_tag (user : Text) (other : Text → Text) (body : Text) (p : Process) :
    ∃ new, (tag user other body).run.run p = (.ok new, { p with bot := afterTag user p.bot body }) ∧
      Shown user other body p.bot new := by
  have hlookup : ∀ found : Option (Text × Text),
      found.bind (fun _ => none) = (none : Option Assignment) := by
    rintro (_ | _) <;> rfl
  rw [tag, afterTag, assigned?]
  dsimp only
  by_cases hbot : (split body).1 = "bot"
  · simp only [if_pos hbot, run_botVariable]
    cases assignment? (split body).2 with
    | none => exact ⟨_, rfl, shown_getD fun _ => .botVar⟩
    | some found => exact ⟨[], rfl, .nothing⟩
  by_cases henv : (split body).1 = "env"
  · simp only [if_neg hbot, if_pos henv, run_botVariable]
    cases assignment? (split body).2 with
    | none => exact ⟨_, rfl, shown_getD fun _ => .global⟩
    | some found => exact ⟨[], rfl, .nothing⟩
  by_cases hset : (split body).1 = "set"
  · simp only [if_neg hbot, if_neg henv, if_pos hset]
    cases assignment? (split body).2 <;> exact ⟨[], rfl, .nothing⟩
  by_cases hget : (split body).1 = "get"
  · have hnone : Operation.all.lookup (split body).1 = none := by
      rw [hget]
      rfl
    simp only [if_neg hbot, if_neg henv, if_neg hset, if_pos hget, hnone, Option.bind_none, hlookup]
    exact ⟨_, rfl, shown_getD fun _ => .userVar⟩
  simp only [if_neg hbot, if_neg henv, if_neg hset, if_neg hget]
  cases hop : Operation.all.lookup (split body).1 with
  | some op =>
    simp only [run_math, Option.bind_some]
    cases assignment? (split body).2 with
    | none => exact ⟨[], rfl, .nothing⟩
    | some found =>
      simp only [Option.bind_some]
      cases op.apply (p.bot.roster.var? user found.1) found.2 with
      | ok result => exact ⟨[], rfl, .nothing⟩
      | error fault => exact ⟨_, rfl, .fault fault⟩
  | none =>
    simp only [Option.bind_none, hlookup]
    refine ⟨other body, rfl, .unknown fun hmem => ?_⟩
    simp only [names, List.mem_cons] at hmem
    rcases hmem with h | h | h | h | hmem
    · exact hbot h
    · exact henv h
    · exact hset h
    · exact hget h
    · obtain ⟨e, he, heq⟩ := List.mem_map.mp hmem
      have hne := List.lookup_eq_none_iff.mp hop e he
      rw [heq] at hne
      simp at hne

/-! ### Characters -/

variable {c : Char} {t : Text}

theorem mem_of_split (h : c ∈ (split t).2) : c ∈ t := by
  rw [split] at h
  split at h
  · rename_i name data hcut
    obtain ⟨d, -, rfl⟩ := eq_of_cutAt? hcut
    exact List.mem_append_right _ (List.mem_cons_of_mem d (mem_of_mem_trim h))
  · cases h

theorem mem_of_assignment? {name value : Text} (h : assignment? t = some (name, value)) :
    (∀ c ∈ name, c ∈ t) ∧ ∀ c ∈ value, c ∈ t := by
  obtain ⟨⟨before, rest⟩, hcut, heq⟩ := Option.map_eq_some_iff.mp h
  cases heq
  obtain ⟨d, -, rfl⟩ := eq_of_cutAt? hcut
  refine ⟨fun c hc => List.mem_append_left _ (mem_of_mem_trim hc), fun c hc => ?_⟩
  exact List.mem_append_right _ (List.mem_cons_of_mem d (mem_of_mem_trim hc))

theorem isDigit_of_mem_ofInt {n : Int} (h : c ∈ Numeral.ofInt n) : c = '-' ∨ c.isDigit := by
  cases n with
  | ofNat n => exact .inr (Numeral.isDigit_of_mem_ofNat h)
  | negSucc n =>
    rcases List.mem_cons.mp h with rfl | h
    · exact .inl rfl
    · exact .inr (Numeral.isDigit_of_mem_ofNat h)

/-- What is assigned stands in the tag, or is a number. -/
theorem mem_of_assigned? {user : Text} {b : Bot} {body : Text} {x : Assignment}
    (h : assigned? user b body = some x) :
    (∀ c ∈ x.name, c ∈ body) ∧ ∀ c ∈ x.value, c ∈ body ∨ c = '-' ∨ c.isDigit := by
  obtain ⟨⟨name, value⟩, hassignment, h⟩ := Option.bind_eq_some_iff.mp h
  obtain ⟨hname, hvalue⟩ := mem_of_assignment? hassignment
  have hbody : (∀ c ∈ name, c ∈ body) ∧ ∀ c ∈ value, c ∈ body ∨ c = '-' ∨ c.isDigit :=
    ⟨fun c hc => mem_of_split (hname c hc), fun c hc => .inl (mem_of_split (hvalue c hc))⟩
  dsimp only at h
  split_ifs at h
  · cases h
    exact hbody
  · cases h
    exact hbody
  · cases h
    exact hbody
  · obtain ⟨op, -, h⟩ := Option.bind_eq_some_iff.mp h
    obtain ⟨result, -, h⟩ := Option.map_eq_some_iff.mp h
    cases h
    exact ⟨hbody.1, fun c hc => .inr (isDigit_of_mem_ofInt hc)⟩

end Variable

end Dialogue
