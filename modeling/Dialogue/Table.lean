import Dialogue.Text.Basic

/-! Finite maps from texts that keep the order in which keys first arrived. -/
namespace Dialogue

structure Table (β : Type) where
  entries : List (Text × β) := []
  deriving DecidableEq, Repr

namespace Table

variable {β : Type}

instance : Inhabited (Table β) := ⟨{}⟩

def find? (t : Table β) (key : Text) : Option β := t.entries.lookup key

def has (t : Table β) (key : Text) : Bool := (t.find? key).isSome

def keys (t : Table β) : List Text := t.entries.map Prod.fst

/-- Keys in the order of their code points. -/
def sortedKeys (t : Table β) : List Text := t.keys.mergeSort Text.le

/-- Changes the value of `key`, which is `absent` so far if the key is new. -/
def alterEntry (key : Text) (absent : β) (f : β → β) : List (Text × β) → List (Text × β)
  | [] => [(key, f absent)]
  | (k, v) :: rest => if k = key then (k, f v) :: rest else (k, v) :: alterEntry key absent f rest

def alter (t : Table β) (key : Text) (absent : β) (f : β → β) : Table β :=
  ⟨alterEntry key absent f t.entries⟩

def set (t : Table β) (key : Text) (value : β) : Table β := t.alter key value fun _ => value

def eraseEntry (key : Text) : List (Text × β) → List (Text × β)
  | [] => []
  | (k, v) :: rest => if k = key then eraseEntry key rest else (k, v) :: eraseEntry key rest

def erase (t : Table β) (key : Text) : Table β := ⟨eraseEntry key t.entries⟩

def put (t : Table β) (key : Text) : Option β → Table β
  | some value => t.set key value
  | none => t.erase key

def setAll (t : Table β) (entries : List (Text × β)) : Table β :=
  entries.foldl (fun t e => t.set e.1 e.2) t

theorem find?_alter_self (t : Table β) (key : Text) (absent : β) (f : β → β) :
    (t.alter key absent f).find? key = some (f ((t.find? key).getD absent)) := by
  obtain ⟨l⟩ := t
  simp only [alter, find?]
  induction l with
  | nil => simp [alterEntry]
  | cons e l ih =>
    obtain ⟨k, v⟩ := e
    by_cases h : k = key
    · subst h; simp [alterEntry]
    · have h' : (key == k) = false := by simpa using Ne.symm h
      simp [alterEntry, h, List.lookup_cons, h', ih]

theorem find?_alter_of_ne (t : Table β) {key other : Text} (absent : β) (f : β → β)
    (h : other ≠ key) : (t.alter key absent f).find? other = t.find? other := by
  obtain ⟨l⟩ := t
  simp only [alter, find?]
  have h' : (other == key) = false := by simpa using h
  induction l with
  | nil => simp [alterEntry, List.lookup_cons, h']
  | cons e l ih =>
    obtain ⟨k, v⟩ := e
    by_cases hk : k = key
    · subst hk; simp [alterEntry, List.lookup_cons, h']
    · simp [alterEntry, hk, List.lookup_cons, ih]

@[simp] theorem find?_set_self (t : Table β) (key : Text) (value : β) :
    (t.set key value).find? key = some value := find?_alter_self ..

theorem find?_set_of_ne (t : Table β) {key other : Text} (value : β) (h : other ≠ key) :
    (t.set key value).find? other = t.find? other := find?_alter_of_ne _ _ _ h

@[simp] theorem find?_erase_self (t : Table β) (key : Text) : (t.erase key).find? key = none := by
  obtain ⟨l⟩ := t
  simp only [erase, find?]
  induction l with
  | nil => rfl
  | cons e l ih =>
    obtain ⟨k, v⟩ := e
    by_cases h : k = key
    · simp [eraseEntry, h, ih]
    · have h' : (key == k) = false := by simpa using Ne.symm h
      simp [eraseEntry, h, List.lookup_cons, h', ih]

theorem find?_erase_of_ne (t : Table β) {key other : Text} (h : other ≠ key) :
    (t.erase key).find? other = t.find? other := by
  obtain ⟨l⟩ := t
  simp only [erase, find?]
  have h' : (other == key) = false := by simpa using h
  induction l with
  | nil => rfl
  | cons e l ih =>
    obtain ⟨k, v⟩ := e
    by_cases hk : k = key
    · subst hk; simp [eraseEntry, List.lookup_cons, h', ih]
    · simp [eraseEntry, hk, List.lookup_cons, ih]

end Table

end Dialogue
