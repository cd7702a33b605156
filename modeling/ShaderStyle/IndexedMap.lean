/-! Ordered maps with an index: a list keeps the keys in the order of first insertion, and two
tables beside it give the position and the value of a key without going through the list.
`OrderedMap` is the list of the entries alone. -/
namespace ShaderStyle

/-- The list and both tables change together: a key is in all of them or in none. -/
structure IndexedMap (κ α : Type) where
  keys : List κ
  positions : κ → Option Nat
  table : κ → Option α

namespace IndexedMap

variable {κ α : Type}

def empty : IndexedMap κ α := ⟨[], fun _ => none, fun _ => none⟩

instance : Inhabited (IndexedMap κ α) := ⟨empty⟩

def size (m : IndexedMap κ α) : Nat := m.keys.length

def load? (m : IndexedMap κ α) (k : κ) : Option α := m.table k

/-- The position of a key in the order of insertion; minus one stands for all other keys. -/
def index (m : IndexedMap κ α) (k : κ) : Int :=
  match m.positions k with
  | some i => i
  | none => -1

section Entries

variable [Inhabited α]

/-- The value of a key, as it is read where the key is known to have one. -/
def value (m : IndexedMap κ α) (k : κ) : α := (m.table k).getD default

def entries (m : IndexedMap κ α) : List (κ × α) := m.keys.map fun k => (k, m.value k)

def values (m : IndexedMap κ α) : List α := m.keys.map m.value

end Entries

section Store

variable [DecidableEq κ]

/-- A table with a new answer for one key. -/
def set {β : Type} (table : κ → Option β) (k : κ) (b : β) : κ → Option β := fun other =>
  if other = k then some b else table other

/-- Gives a key without a value the next position. -/
def place (m : IndexedMap κ α) (k : κ) : IndexedMap κ α :=
  if (m.table k).isSome then m
  else { m with keys := m.keys ++ [k], positions := set m.positions k m.keys.length }

def store (m : IndexedMap κ α) (k : κ) (v : α) : IndexedMap κ α :=
  { m.place k with table := set m.table k v }

/-- Stores a value unless the key has one. The answer is the value that the key has then, and
whether it was there before. -/
def loadOrStore (m : IndexedMap κ α) (k : κ) (v : α) : (α × Bool) × IndexedMap κ α :=
  match m.table k with
  | some present => ((present, true), m)
  | none => ((v, false), m.store k v)

/-- A map of its own with the same entries, stored one by one. -/
def clone [Inhabited α] (m : IndexedMap κ α) : IndexedMap κ α :=
  m.entries.foldl (fun copy e => copy.store e.1 e.2) empty

end Store

end IndexedMap

end ShaderStyle
