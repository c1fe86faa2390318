import Dialogue.Proofs.Tags
import Dialogue.Proofs.Verbatim

/-! Tags that calculate. What they leave in a variable is the exact result, written as a numeral, which the
next one reads again; where there is no such result the variable is left alone. -/
namespace Dialogue

open Text Answering

namespace Numeral

/-- Sixty-four bits, one of them for the sign. -/
def InRange (n : Int) : Prop := -9223372036854775808 ≤ n ∧ n < 9223372036854775808

instance (n : Int) : Decidable (InRange n) := inferInstanceAs (Decidable (_ ∧ _))

theorem fits_iff {n : Int} : fits n = true ↔ InRange n := by
  rw [fits, Bool.and_eq_true, decide_eq_true_eq, decide_eq_true_eq]
  rfl

theorem integer?_ofNat {n : Nat} (h : InRange n) : integer? (ofNat n) = some (n : Int) := by
  have hminus : ∀ rest, ofNat n ≠ '-' :: rest := by
    intro rest heq
    have hdigit : '-'.isDigit := isDigit_of_mem_ofNat (n := n) (heq ▸ List.mem_cons_self)
    exact absurd hdigit (by decide)
  have hread : integer? (ofNat n) = Option.filter fits (some (n : Int)) := by
    rw [integer?.eq_3 _ hminus (head_ofNat_ne_plus n), digits?_ofNat]
    rfl
  rw [hread, Option.filter_some, if_pos (fits_iff.mpr h)]

/-- A numeral that was written is read again. -/
theorem integer?_ofInt {n : Int} (h : InRange n) : integer? (ofInt n) = some n := by
  cases n with
  | ofNat n => exact integer?_ofNat h
  | negSucc n =>
    have hread : integer? (ofInt (.negSucc n)) = Option.filter fits (some (.negSucc n)) := by
      rw [ofInt, integer?, digits?_ofNat]
      rfl
    rw [hread, Option.filter_some, if_pos (fits_iff.mpr h)]

theorem isName_ofInt (n : Int) : IsName (ofInt n) where
  ne := by
    cases n with
    | ofNat n => exact ofNat_ne_nil n
    | negSucc n => exact List.cons_ne_nil _ _
  solid c hc := by
    rcases Variable.isDigit_of_mem_ofInt hc with rfl | hdigit
    · decide
    · exact isSpace_of_isDigit (isDigit_of_isDigit hdigit)

end Numeral

namespace Text

variable {s t : Text} {c : Char}

theorem trim_append_cons (hc : isSpace c = false) (s t : Text) :
    trim (s ++ c :: t) = trimStart s ++ c :: trimEnd t := by
  have hstart : trimStart (s ++ c :: t) = trimStart s ++ c :: t := by
    rw [trimStart, List.dropWhile_append, List.dropWhile_cons_of_neg (by rw [hc]; decide)]
    split
    · rename_i hnil
      rw [trimStart, List.isEmpty_iff.mp hnil]
      rfl
    · rfl
  have hend : trimEnd (c :: t) = c :: trimEnd t :=
    trimEnd_append_of_solid (List.forall_mem_singleton.mpr hc) t
  rw [trim, hstart, trimEnd_append, hend, if_neg (List.cons_ne_nil _ _)]

theorem trim_trimStart (t : Text) : trim (trimStart t) = trim t := by
  rw [trim, trim, trimStart, trimStart, List.dropWhile_idempotent]

theorem trim_trimEnd (t : Text) : trim (trimEnd t) = trim t := by
  obtain ⟨s, hs, hreverse⟩ := trimStart_eq t.reverse
  have hsplit : t = trimEnd t ++ s.reverse := by
    rw [trimEnd, ← List.reverse_append]
    exact List.reverse_eq_iff.mp hreverse
  conv_rhs => rw [hsplit, trim_append_space _ fun c hc => hs c (List.mem_reverse.mp hc)]

end Text

theorem Roster.var?_setVar_self (r : Roster) (user name value : Text) :
    (r.setVar user name (some value)).var? user name = some value := by
  rw [var?, setVar, profile?_alter_self]
  exact Table.find?_set_self ..

namespace Variable

/-! ### Calculations -/

theorem lookup_operations : ∀ e ∈ Operation.all, Operation.all.lookup e.1 = some e.2 ∧ ' ' ∉ e.1 ∧
    e.1 ∉ (["bot", "env", "set", "get"] : List Text) := by
  decide

/-- A tag that calculates, as it is written: what the operation is called, in letters of either case,
which variable it is done to, and with which value. The first equals sign stands before the value. -/
structure Calculation where
  operation : Operation
  kind : Text
  name : Text
  value : Text
  called : (lower kind, operation) ∈ Operation.all
  plain : '=' ∉ name

namespace Calculation

def body (c : Calculation) : Text := c.kind ++ ' ' :: (c.name ++ '=' :: c.value)

/-- The variable, without the white space around its name. -/
def target (c : Calculation) : Text := trim c.name

def operand? (c : Calculation) : Option Int := Numeral.integer? (trim c.value)

/-- What is calculated with. A variable that is not set counts as zero. -/
def current? (c : Calculation) (user : Text) (p : Process) : Option Int :=
  Numeral.integer? (trim ((p.bot.roster.var? user c.target).getD "0"))

def assign (c : Calculation) (user : Text) (result : Int) (p : Process) : Process :=
  { p with bot := p.bot.assign ⟨.user user, c.target, Numeral.ofInt result⟩ }

/-- What takes the place of a calculation, and how it leaves the process. Each fault is one of its own only
if there is none of those before it. -/
inductive ComesTo (c : Calculation) (user : Text) (p : Process) : Text → Process → Prop where
  | badValue : c.operand? = none → ComesTo c user p p.bot.settings.wording.badValue p
  | badVariable {b : Int} : c.operand? = some b → c.current? user p = none →
      ComesTo c user p p.bot.settings.wording.badVariable p
  | zeroDivisor {a : Int} : c.operand? = some 0 → c.current? user p = some a → c.operation = .div →
      ComesTo c user p p.bot.settings.wording.zeroDivisor p
  | overflow {a b : Int} : c.operand? = some b → c.current? user p = some a →
      ¬ (c.operation = .div ∧ b = 0) → ¬ Numeral.InRange (c.operation.result a b) →
      ComesTo c user p p.bot.settings.wording.badValue p
  | result {a b : Int} : c.operand? = some b → c.current? user p = some a →
      ¬ (c.operation = .div ∧ b = 0) → Numeral.InRange (c.operation.result a b) →
      ComesTo c user p [] (c.assign user (c.operation.result a b) p)

variable {c : Calculation} {user shown : Text} {p q : Process}

theorem exists_comesTo (c : Calculation) (user : Text) (p : Process) : ∃ shown q, c.ComesTo user p shown q := by
  cases hoperand : c.operand? with
  | none => exact ⟨_, _, .badValue hoperand⟩
  | some b =>
    cases hcurrent : c.current? user p with
    | none => exact ⟨_, _, .badVariable hoperand hcurrent⟩
    | some a =>
      by_cases hzero : c.operation = .div ∧ b = 0
      · obtain ⟨hdiv, rfl⟩ := hzero
        exact ⟨_, _, .zeroDivisor hoperand hcurrent hdiv⟩
      · by_cases hrange : Numeral.InRange (c.operation.result a b)
        · exact ⟨_, _, .result hoperand hcurrent hzero hrange⟩
        · exact ⟨_, _, .overflow hoperand hcurrent hzero hrange⟩

theorem split_body (c : Calculation) :
    split c.body = (lower c.kind, trim (c.name ++ '=' :: c.value)) := by
  have hblank : ' ' ∉ c.kind := fun h =>
    (lookup_operations _ c.called).2.1 (mem_lower (by decide) (by decide) h)
  have hcut : cutAt? (· = ' ') c.body = some (c.kind, c.name ++ '=' :: c.value) := by
    refine Pattern.cutAt?_append (fun d hd => ?_) (by decide) _
    exact decide_eq_false fun heq => hblank (heq ▸ hd)
  rw [split, hcut]

theorem assignment?_body (c : Calculation) :
    assignment? (trim (c.name ++ '=' :: c.value)) = some (c.target, trim c.value) := by
  have hplain : ∀ d ∈ trimStart c.name, decide (d = '=') = false := by
    intro d hd
    exact decide_eq_false fun heq => c.plain (heq ▸ (List.dropWhile_sublist _).mem hd)
  rw [assignment?, trim_append_cons (by decide), Pattern.cutAt?_append hplain (by decide)]
  show some (trim (trimStart c.name), trim (trimEnd c.value)) = _
  rw [trim_trimStart, trim_trimEnd, target]

/-- A tag that is written like this is carried out as a calculation. -/
theorem tag_body (c : Calculation) (user : Text) (other : Text → Text) :
    tag user other c.body = math user c.operation (trim (c.name ++ '=' :: c.value)) := by
  obtain ⟨hlookup, -, hnot⟩ := lookup_operations _ c.called
  simp only [List.mem_cons, not_or] at hnot
  obtain ⟨hbot, henv, hset, hget, -⟩ := hnot
  rw [tag, split_body]
  dsimp only
  rw [if_neg hbot, if_neg henv, if_neg hset, if_neg hget, hlookup]

theorem ComesTo.run (h : c.ComesTo user p shown q) (other : Text → Text) :
    (tag user other c.body).run.run p = (.ok shown, q) := by
  rw [tag_body, run_math, assignment?_body]
  dsimp only
  have happly : ∀ {a b : Int}, c.operand? = some b → c.current? user p = some a →
      c.operation.apply (p.bot.roster.var? user c.target) (trim c.value) =
        if c.operation = .div ∧ b = 0 then .error .zeroDivisor
        else if Numeral.fits (c.operation.result a b) then .ok (c.operation.result a b)
        else .error .badValue := by
    intro a b hoperand hcurrent
    rw [operand?] at hoperand
    rw [current?] at hcurrent
    rw [Operation.apply, hoperand, hcurrent]
  cases h with
  | badValue hoperand =>
    rw [operand?] at hoperand
    rw [Operation.apply, hoperand]
    rfl
  | badVariable hoperand hcurrent =>
    rw [operand?] at hoperand
    rw [current?] at hcurrent
    rw [Operation.apply, hoperand, hcurrent]
    rfl
  | zeroDivisor hoperand hcurrent hdiv =>
    rw [happly hoperand hcurrent, if_pos ⟨hdiv, rfl⟩]
    rfl
  | overflow hoperand hcurrent hzero hrange =>
    rw [happly hoperand hcurrent, if_neg hzero, if_neg fun hfits => hrange (Numeral.fits_iff.mp hfits)]
    rfl
  | result hoperand hcurrent hzero hrange =>
    rw [happly hoperand hcurrent, if_neg hzero, if_pos (Numeral.fits_iff.mpr hrange)]
    rfl

theorem ComesTo.value?_of_ne (h : c.ComesTo user p shown q) {holder : Holder} {name : Text}
    (hne : ¬ (holder = .user user ∧ name = c.target)) :
    q.bot.value? holder name = p.bot.value? holder name := by
  cases h with
  | result => exact (Bot.value?_assign _ holder name).trans (if_neg hne)
  | _ => rfl

end Calculation

/-! ### One calculation after the other -/

/-- The variable is not set, or it can be calculated with. -/
def IsIntegral (value : Option Text) : Prop :=
  ∀ t, value = some t → ∃ n, Numeral.integer? (trim t) = some n

/-- The variable is what it was, or the numeral of a number that fits. -/
def Recounted (before after : Option Text) : Prop :=
  after = before ∨ ∃ n, Numeral.InRange n ∧ after = some (Numeral.ofInt n)

theorem isIntegral_ofInt {n : Int} (h : Numeral.InRange n) : IsIntegral (some (Numeral.ofInt n)) := by
  rintro _ ⟨⟩
  exact ⟨n, by rw [(Numeral.isName_ofInt n).neat.trim, Numeral.integer?_ofInt h]⟩

variable {before between after : Option Text}

theorem Recounted.trans (h : Recounted before between) (k : Recounted between after) :
    Recounted before after := by
  rcases k with rfl | hnumeral
  · exact h
  · exact .inr hnumeral

theorem IsIntegral.recounted (h : IsIntegral before) (k : Recounted before after) : IsIntegral after := by
  rcases k with rfl | ⟨n, hn, rfl⟩
  · exact h
  · exact isIntegral_ofInt hn

theorem Calculation.ComesTo.recounted {c : Calculation} {user shown : Text} {p q : Process}
    (h : c.ComesTo user p shown q) :
    Recounted (p.bot.roster.var? user c.target) (q.bot.roster.var? user c.target) := by
  cases h with
  | result _ _ _ hrange =>
    exact .inr ⟨_, hrange, Roster.var?_setVar_self ..⟩
  | _ => exact .inl rfl

/-- No sequence of calculations ends in a fault of the reply. -/
theorem run_calculations (user : Text) (other : Text → Text) {name : Text} (cs : List Calculation)
    (hname : ∀ c ∈ cs, c.target = name) (p : Process) :
    ∃ shown q, (cs.mapM fun c => tag user other c.body).run.run p = (.ok shown, q) ∧
      Recounted (p.bot.roster.var? user name) (q.bot.roster.var? user name) := by
  induction cs generalizing p with
  | nil => exact ⟨[], p, rfl, .inl rfl⟩
  | cons c cs ih =>
    rw [List.forall_mem_cons] at hname
    obtain ⟨rfl, hname⟩ := hname
    obtain ⟨first, q, hfirst⟩ := c.exists_comesTo user p
    obtain ⟨rest, r, hrest, hrecounted⟩ := ih hname q
    refine ⟨first :: rest, r, ?_, hfirst.recounted.trans hrecounted⟩
    rw [List.mapM_cons, run_bind, hfirst.run other]
    dsimp only
    rw [run_bind, hrest]
    rfl

/-- A calculation either leaves the exact result in its variable and says nothing, or says what is wrong
with it and leaves everything as it was. So a variable that is not set, or is an integer, stays so. -/
theorem calculates_exactly (user : Text) (other : Text → Text) :
    (∀ (c : Calculation) (p : Process), (∃ shown q, c.ComesTo user p shown q) ∧
      ∀ shown q, c.ComesTo user p shown q →
        (tag user other c.body).run.run p = (.ok shown, q) ∧
        ∀ holder name, ¬ (holder = .user user ∧ name = c.target) →
          q.bot.value? holder name = p.bot.value? holder name) ∧
    ∀ (name : Text) (cs : List Calculation) (p : Process), (∀ c ∈ cs, c.target = name) →
      ∃ shown q, (cs.mapM fun c => tag user other c.body).run.run p = (.ok shown, q) ∧
        Recounted (p.bot.roster.var? user name) (q.bot.roster.var? user name) ∧
        (IsIntegral (p.bot.roster.var? user name) → IsIntegral (q.bot.roster.var? user name)) := by
  constructor
  · intro c p
    exact ⟨c.exists_comesTo user p, fun shown q h => ⟨h.run other, fun holder name => h.value?_of_ne⟩⟩
  · intro name cs p hname
    obtain ⟨shown, q, hrun, hrecounted⟩ := run_calculations user other cs hname p
    exact ⟨shown, q, hrun, hrecounted, fun hintegral => hintegral.recounted hrecounted⟩

/-- Somebody who counts down, with white space around the number. -/
def countdown : Process where
  bot := { roster := ({} : Roster).setVar "user" "count" (some " -9223372036854775807\n") }

def decrement : Calculation := ⟨.sub, "SUB", " count ", "\t+01", by decide, by decide⟩

def inversion : Calculation := ⟨.div, "div", "count", "-1", by decide, by decide⟩

/-- The lowest number of all is reached, and has no opposite. -/
theorem countdown_calculates :
    decrement.ComesTo "user" countdown [] (decrement.assign "user" (-9223372036854775808) countdown) ∧
    (tag "user" Markup.park decrement.body).run.run countdown =
      (.ok [], decrement.assign "user" (-9223372036854775808) countdown) ∧
    (∀ c ∈ [decrement, inversion], c.target = "count") ∧
    IsIntegral (countdown.bot.roster.var? "user" "count") ∧
    ∃ q, ([decrement, inversion].mapM fun c => tag "user" Markup.park c.body).run.run countdown =
        (.ok [[], ({} : Wording).badValue], q) ∧
      q.bot.roster.var? "user" "count" = some ("-9223372036854775808" : Text) ∧
      IsIntegral (q.bot.roster.var? "user" "count") := by
  obtain ⟨hstep, hsequence⟩ := calculates_exactly "user" Markup.park
  have hcomes : decrement.ComesTo "user" countdown []
      (decrement.assign "user" (-9223372036854775808) countdown) :=
    .result (a := -9223372036854775807) (b := 1) (by decide +kernel) (by decide +kernel) (by decide) (by decide)
  have htarget : ∀ c ∈ [decrement, inversion], c.target = "count" := by decide
  have hintegral : IsIntegral (countdown.bot.roster.var? "user" "count") := by
    intro t ht
    have hvalue : countdown.bot.roster.var? "user" "count" = some (" -9223372036854775807\n" : Text) := by decide
    cases hvalue.symm.trans ht
    exact ⟨-9223372036854775807, by decide +kernel⟩
  obtain ⟨shown, q, hrun, -, hkeeps⟩ := hsequence "count" [decrement, inversion] countdown htarget
  have hrun' := ((hstep decrement countdown).2 _ _ hcomes).1
  refine ⟨hcomes, hrun', htarget, hintegral, q, ?_, ?_, hkeeps hintegral⟩
  · have hshown : (([decrement, inversion].mapM fun c => tag "user" Markup.park c.body).run.run
        countdown).1.toOption = some [[], ({} : Wording).badValue] := by decide +kernel
    rw [hrun] at hshown
    rw [hrun, Option.some.inj hshown]
  · have hvalue : (([decrement, inversion].mapM fun c => tag "user" Markup.park c.body).run.run
        countdown).2.bot.roster.var? "user" "count" = some ("-9223372036854775808" : Text) := by decide +kernel
    rwa [hrun] at hvalue

end Variable

end Dialogue
