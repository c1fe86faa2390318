import Dialogue.Callables
import Dialogue.Proofs.Users
import Mathlib.Data.List.Induction

/-! Handlers and the objects they were given. An object is looked for under its language, so a handler
that takes the place of another is asked for what that one was given. A handler may be registered more
than once, and for more than one language. -/
namespace Dialogue

/-- What can be called, and whoever was registered, in the order which serial numbers count. -/
structure Registry (ι : Type) where
  callables : Callables := {}
  registrations : List ι := []

namespace Registry

/-- Everything that can be done with what a reply can call. -/
inductive Operation (ι : Type) where
  | setHandler (language : Text) (handler : ι)
  | removeHandler (language : Text)
  | setSubroutine (name : Text) (subroutine : Subroutine)
  | removeSubroutine (name : Text)
  | load (object : ObjectSource)

variable {ι : Type} (answers : ι → ObjectCall)

def perform : Operation ι → Registry ι → Registry ι
  | .setHandler language handler, r =>
    ⟨r.callables.setHandler language (answers handler), r.registrations ++ [handler]⟩
  | .removeHandler language, r => { r with callables := r.callables.removeHandler language }
  | .setSubroutine name s, r => { r with callables := r.callables.setSubroutine name s }
  | .removeSubroutine name, r => { r with callables := r.callables.removeSubroutine name }
  | .load o, r => { r with callables := r.callables.deliver o }

def performAll (ops : List (Operation ι)) : Registry ι :=
  ops.foldl (fun r op => perform answers op r) {}

/-- The handler is the one of the language in which an object of this name was given away. -/
def StandsFor (r : Registry ι) (name : Text) (handler : ι) : Prop :=
  ∃ h, r.callables.handlerOf? name = some h ∧ r.registrations[h.serial]? = some handler

/-- A call of this name is a call of the handler: no subroutine comes first. -/
structure Asks (r : Registry ι) (name : Text) (handler : ι) : Prop where
  free : r.callables.subroutines.find? name = none
  standsFor : r.StandsFor name handler

/-- The handler was given an object of this name. -/
def Given (r : Registry ι) (name : Text) (handler : ι) : Prop :=
  ∃ d ∈ r.callables.deliveries, d.name = name ∧ r.registrations[d.serial]? = some handler

/-- Whoever is asked for an object was given it, and it is he who answers. -/
def Faithful (r : Registry ι) : Prop :=
  ∀ name handler, r.Asks name handler → r.Given name handler ∧
    ∀ user args, r.callables.call? name user args = some (answers handler name user args)

/-- A handler is registered for a language only after it was given all objects that are known in it. -/
def Careful (ops : List (Operation ι)) : Prop :=
  ∀ before language handler, before ++ [.setHandler language handler] <+: ops → ∀ name,
    (performAll answers before).callables.languages.find? name = some language →
      (performAll answers before).Given name handler

/-- Numbers are those of registrations, and an object has one language. -/
structure Numbered (r : Registry ι) : Prop where
  count : r.callables.registered = r.registrations.length
  handlers : ∀ language h, r.callables.handlers.find? language = some h →
    ∃ handler, r.registrations[h.serial]? = some handler ∧ h.call = answers handler
  deliveries : ∀ d ∈ r.callables.deliveries, d.serial < r.registrations.length
  languages : r.callables.languages.keys.Nodup

variable {answers} {r : Registry ι} {name language : Text} {handler : ι}

theorem performAll_concat (ops : List (Operation ι)) (op : Operation ι) :
    performAll answers (ops ++ [op]) = perform answers op (performAll answers ops) := by
  rw [performAll, List.foldl_append]
  rfl

/-! ### One operation more -/

/-- A registration keeps its number. -/
theorem registrations_perform (op : Operation ι) {serial : Nat}
    (h : r.registrations[serial]? = some handler) :
    (perform answers op r).registrations[serial]? = some handler := by
  cases op with
  | setHandler =>
    obtain ⟨hlt, -⟩ := List.getElem?_eq_some_iff.mp h
    exact (List.getElem?_append_left hlt).trans h
  | _ => exact h

theorem deliveries_perform (op : Operation ι) {d : Delivery} (h : d ∈ r.callables.deliveries) :
    d ∈ (perform answers op r).callables.deliveries := by
  cases op with
  | load o =>
    simp only [perform, Callables.deliver]
    split
    · exact List.mem_append_left _ h
    · exact h
  | _ => exact h

theorem Given.perform (h : r.Given name handler) (op : Operation ι) :
    (perform answers op r).Given name handler := by
  obtain ⟨d, hd, hname, hserial⟩ := h
  exact ⟨d, deliveries_perform op hd, hname, registrations_perform op hserial⟩

/-- The objects of the language are not known any more. -/
theorem find?_removeHandler {c : Callables} (h : c.languages.keys.Nodup) (language name : Text) :
    (c.removeHandler language).languages.find? name =
      (c.languages.find? name).bind fun l => if l = language then none else some l := by
  have hentries : (c.removeHandler language).languages.entries = c.languages.entries.filterMap
      fun e => (if e.2 = language then none else some e.2).map fun l => (e.1, l) := by
    show c.languages.entries.filter _ = _
    rw [← List.filterMap_eq_filter]
    refine List.filterMap_congr fun e _ => ?_
    by_cases he : e.2 = language <;> simp [Option.guard, he]
  rw [Table.find?, hentries]
  exact Table.lookup_filterMap (fun l => if l = language then none else some l) h name

theorem Numbered.setHandler (h : r.Numbered answers) (language : Text) (handler : ι) :
    (perform answers (.setHandler language handler) r).Numbered answers where
  count := by
    show r.callables.registered + 1 = (r.registrations ++ [handler]).length
    rw [h.count, List.length_append]
    rfl
  handlers l g hg := by
    rcases Table.find?_of_set hg with ⟨-, rfl⟩ | hold
    · refine ⟨handler, ?_, rfl⟩
      show (r.registrations ++ [handler])[r.callables.registered]? = some handler
      rw [h.count]
      exact List.getElem?_concat_length
    · obtain ⟨former, hserial, hcall⟩ := h.handlers l g hold
      exact ⟨former, registrations_perform _ hserial, hcall⟩
  deliveries d hd := by
    show d.serial < (r.registrations ++ [handler]).length
    rw [List.length_append]
    exact Nat.lt_add_right _ (h.deliveries d hd)
  languages := h.languages

theorem Numbered.removeHandler (h : r.Numbered answers) (language : Text) :
    (perform answers (.removeHandler language) r).Numbered answers where
  count := h.count
  handlers l g hg := h.handlers l g (Table.find?_of_erase hg)
  deliveries := h.deliveries
  languages := h.languages.sublist (List.filter_sublist.map Prod.fst)

theorem Numbered.load (h : r.Numbered answers) (o : ObjectSource) :
    (perform answers (.load o) r).Numbered answers := by
  simp only [perform, Callables.deliver]
  cases hh : r.callables.handlers.find? o.language with
  | none => exact h
  | some g =>
    refine ⟨h.count, h.handlers, fun d hd => ?_, ?_⟩
    · rcases List.mem_append.mp hd with hd | hd
      · exact h.deliveries d hd
      · obtain rfl := List.mem_singleton.mp hd
        obtain ⟨handler, hserial, -⟩ := h.handlers _ g hh
        exact (List.getElem?_eq_some_iff.mp hserial).1
    · show (r.callables.languages.set o.name o.language).keys.Nodup
      rw [Table.set, Table.keys_alter]
      exact Topic.nodup_addName h.languages o.name

theorem Numbered.perform (h : r.Numbered answers) (op : Operation ι) :
    (perform answers op r).Numbered answers := by
  cases op with
  | setHandler language handler => exact h.setHandler language handler
  | removeHandler language => exact h.removeHandler language
  | load o => exact h.load o
  | setSubroutine | removeSubroutine => exact ⟨h.count, h.handlers, h.deliveries, h.languages⟩

theorem numbered_performAll (ops : List (Operation ι)) : (performAll answers ops).Numbered answers := by
  induction ops using List.reverseRecOn with
  | nil =>
    exact {
      count := rfl
      handlers := fun _ _ h => nomatch h
      deliveries := fun _ h => nomatch h
      languages := List.nodup_nil }
  | append_singleton ops op ih =>
    rw [performAll_concat]
    exact ih.perform op

/-! ### Who stands for an object -/

theorem handlerOf?_eq_some {c : Callables} {h : Handler} :
    c.handlerOf? name = some h ↔ ∃ language, c.languages.find? name = some language ∧
      c.handlers.find? language = some h :=
  Option.bind_eq_some_iff

/-- Whoever is made to stand for an object by an operation stood for it before, was given it just now,
or has been registered for its language. -/
theorem standsFor_perform (hr : r.Numbered answers) (op : Operation ι)
    (h : (perform answers op r).StandsFor name handler) :
    r.StandsFor name handler ∨ (perform answers op r).Given name handler ∨
      ∃ language, op = .setHandler language handler ∧
        r.callables.languages.find? name = some language := by
  obtain ⟨g, hg, hserial⟩ := h
  obtain ⟨language, hlanguage, hhandler⟩ := handlerOf?_eq_some.mp hg
  cases op with
  | setHandler other new =>
    rcases Table.find?_of_set hhandler with ⟨rfl, rfl⟩ | hold
    · have hnew : (r.registrations ++ [new])[r.callables.registered]? = some new := by
        rw [hr.count]
        exact List.getElem?_concat_length
      obtain rfl := Option.some.inj (hnew.symm.trans hserial)
      exact .inr (.inr ⟨language, rfl, hlanguage⟩)
    · obtain ⟨former, hformer, -⟩ := hr.handlers language g hold
      have hsame : (perform answers (.setHandler other new) r).registrations[g.serial]? = some former :=
        registrations_perform _ hformer
      obtain rfl := Option.some.inj (hsame.symm.trans hserial)
      exact .inl ⟨g, handlerOf?_eq_some.mpr ⟨language, hlanguage, hold⟩, hformer⟩
  | removeHandler other =>
    have hfind := find?_removeHandler hr.languages other name
    obtain ⟨l, hl, hif⟩ := Option.bind_eq_some_iff.mp (hfind.symm.trans hlanguage)
    split at hif
    · cases hif
    · obtain rfl := Option.some.inj hif
      have hhandler := Table.find?_of_erase hhandler
      exact .inl ⟨g, handlerOf?_eq_some.mpr ⟨l, hl, hhandler⟩, hserial⟩
  | load o =>
    simp only [perform, Callables.deliver] at hlanguage hhandler hserial ⊢
    cases hh : r.callables.handlers.find? o.language with
    | none =>
      rw [hh] at hlanguage hhandler
      exact .inl ⟨g, handlerOf?_eq_some.mpr ⟨language, hlanguage, hhandler⟩, hserial⟩
    | some receiver =>
      rw [hh] at hlanguage hhandler
      rcases Table.find?_of_set hlanguage with ⟨rfl, rfl⟩ | hold
      · obtain rfl := Option.some.inj (hh.symm.trans hhandler)
        exact .inr (.inl ⟨_, List.mem_append_right _ List.mem_cons_self, rfl, hserial⟩)
      · exact .inl ⟨g, handlerOf?_eq_some.mpr ⟨language, hold, hhandler⟩, hserial⟩
  | setSubroutine | removeSubroutine => exact .inl ⟨g, hg, hserial⟩

theorem standsFor_setHandler (hr : r.Numbered answers)
    (h : r.callables.languages.find? name = some language) (handler : ι) :
    (perform answers (.setHandler language handler) r).StandsFor name handler := by
  refine ⟨⟨r.callables.registered, answers handler⟩, ?_, ?_⟩
  · exact handlerOf?_eq_some.mpr ⟨language, h, Table.find?_set_self _ language _⟩
  · show (r.registrations ++ [handler])[r.callables.registered]? = some handler
    rw [hr.count]
    exact List.getElem?_concat_length

theorem given_of_standsFor {ops : List (Operation ι)} (hops : Careful answers ops)
    (h : (performAll answers ops).StandsFor name handler) :
    (performAll answers ops).Given name handler := by
  induction ops using List.reverseRecOn generalizing name handler with
  | nil =>
    obtain ⟨g, hg, -⟩ := h
    cases hg
  | append_singleton ops op ih =>
    have hbefore : Careful answers ops := fun before language handler hstart =>
      hops before language handler (hstart.trans (List.prefix_append ops [op]))
    rw [performAll_concat] at h ⊢
    rcases standsFor_perform (numbered_performAll ops) op h with hold | hnow | ⟨language, rfl, hl⟩
    · exact (ih hbefore hold).perform op
    · exact hnow
    · exact (hops ops language handler (List.prefix_refl _) name hl).perform _

theorem call?_of_asks (hr : r.Numbered answers) (h : r.Asks name handler) (user : Text)
    (args : List Text) : r.callables.call? name user args = some (answers handler name user args) := by
  obtain ⟨g, hg, hserial⟩ := h.standsFor
  obtain ⟨language, -, hhandler⟩ := handlerOf?_eq_some.mp hg
  obtain ⟨other, hother, hcall⟩ := hr.handlers language g hhandler
  obtain rfl := Option.some.inj (hother.symm.trans hserial)
  rw [Callables.call?, h.free]
  simp only [hg, Option.map_some, hcall]

/-- Subroutines are nothing to the handlers. -/
theorem performAll_removeSubroutines (answers : ι → ObjectCall) (ops : List (Operation ι))
    (names : List Text) :
    ∃ subroutines, performAll answers (ops ++ names.map .removeSubroutine) =
      { performAll answers ops with
        callables := { (performAll answers ops).callables with subroutines } } := by
  induction names using List.reverseRecOn with
  | nil =>
    rw [List.map_nil, List.append_nil]
    exact ⟨_, rfl⟩
  | append_singleton names name ih =>
    obtain ⟨subroutines, hsame⟩ := ih
    rw [List.map_append, ← List.append_assoc]
    refine ⟨subroutines.erase name, ?_⟩
    exact (performAll_concat _ _).trans (by rw [hsame]; rfl)

/-- A run is careful just if at no moment of it a handler would be asked for an object that it was not
given, whichever subroutines are taken away then. -/
theorem faithful_iff_careful (answers : ι → ObjectCall) (ops : List (Operation ι)) :
    (∀ before, before <+: ops → ∀ names : List Text,
      (performAll answers (before ++ names.map .removeSubroutine)).Faithful answers) ↔
        Careful answers ops := by
  constructor
  · intro h before language handler hstart name hlanguage
    -- Once no subroutine comes first, the new handler is asked.
    have hmoment := h _ hstart [name] name handler
    rw [List.map_singleton, performAll_concat, performAll_concat] at hmoment
    have hr : (performAll answers before).Numbered answers := numbered_performAll before
    generalize performAll answers before = r at hlanguage hmoment hr ⊢
    obtain ⟨⟨d, hd, hname, hserial⟩, -⟩ := hmoment {
      free := Table.find?_erase_self r.callables.subroutines name
      standsFor := standsFor_setHandler hr hlanguage handler }
    refine ⟨d, hd, hname, ?_⟩
    rw [← hserial]
    exact (List.getElem?_append_left (hr.deliveries d hd)).symm
  · intro h before hstart names name handler hasks
    refine ⟨?_, call?_of_asks (numbered_performAll _) hasks⟩
    obtain ⟨subroutines, hsame⟩ := performAll_removeSubroutines answers before names
    have hbefore : Careful answers before := fun earlier language handler hearlier =>
      h earlier language handler (hearlier.trans hstart)
    have hstands := hasks.standsFor
    rw [hsame] at hstands ⊢
    exact given_of_standsFor hbefore hstands

/-- Nobody says anything. -/
def silent : Bool → ObjectCall := fun _ _ _ _ => []

def echo : ObjectSource := { name := "echo", language := "lua" }

/-- Where the former handler is taken away first, its objects have to be loaded again. -/
def reloaded : List (Operation Bool) :=
  [.setHandler "lua" false, .load echo, .removeHandler "lua", .setHandler "lua" true, .load echo]

theorem reloaded_faithful :
    (performAll silent reloaded).Asks "echo" true ∧ (performAll silent reloaded).Faithful silent := by
  have hcareful : Careful silent reloaded := by
    rintro before language handler ⟨rest, hrest⟩ name hlanguage
    -- Neither registration finds an object that is known.
    rcases before with _ | ⟨_, _ | ⟨_, _ | ⟨_, _ | ⟨_, _ | ⟨_, before⟩⟩⟩⟩⟩
    · cases hlanguage
    all_goals simp [reloaded] at hrest
    obtain ⟨rfl, rfl, rfl, -⟩ := hrest
    cases hlanguage
  refine ⟨⟨rfl, _, rfl, rfl⟩, ?_⟩
  have hfaithful := (faithful_iff_careful silent reloaded).mpr hcareful reloaded (List.prefix_refl _) []
  rwa [List.map_nil, List.append_nil] at hfaithful

def replaced : List (Operation Bool) :=
  [.setHandler "lua" false, .load echo, .setHandler "lua" true]

/-- The handler that takes the place of another is asked for an object that only the other was
given. -/
theorem replacement_asked : (performAll silent replaced).Asks "echo" true ∧
    (performAll silent replaced).Given "echo" false ∧
      ¬ (performAll silent replaced).Given "echo" true := by
  refine ⟨⟨rfl, _, rfl, rfl⟩, ⟨_, List.mem_cons_self, rfl, rfl⟩, ?_⟩
  rintro ⟨d, hd, -, hserial⟩
  obtain rfl := List.mem_singleton.mp hd
  cases hserial

end Registry

end Dialogue
