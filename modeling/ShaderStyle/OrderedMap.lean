/-! Maps that keep their keys in the order of first insertion. -/
namespace ShaderStyle

/-- An association list; a key keeps its place when its value is replaced. -/
structure OrderedMap (κ α : Type) where
  entries : List (κ × α)

namespace OrderedMap

variable {κ α : Type}

def empty : OrderedMap κ α := ⟨[]⟩

instance : Inhabited (OrderedMap κ α) := ⟨empty⟩

def keys (m : OrderedMap κ α) : List κ := m.entries.map Prod.fst

def values (m : OrderedMap κ α) : List α := m.entries.map Prod.snd

def size (m : OrderedMap κ α) : Nat := m.entries.length

variable [BEq κ]

def get? (m : OrderedMap κ α) (k : κ) : Option α := m.entries.lookup k

def contains (m : OrderedMap κ α) (k : κ) : Bool := (m.get? k).isSome

/-- The position of a key in the order of insertion. -/
def index? (m : OrderedMap κ α) (k : κ) : Option Nat := m.entries.findIdx? fun e => e.1 == k

/-- Stores a value: in place for a known key, at the end for a new one. -/
def insert (m : OrderedMap κ α) (k : κ) (v : α) : OrderedMap κ α :=
  if m.contains k then ⟨m.entries.map fun e => if e.1 == k then (e.1, v) else e⟩
  else ⟨m.entries ++ [(k, v)]⟩

/-- Stores a value unless the key has one. -/
def insertNew (m : OrderedMap κ α) (k : κ) (v : α) : OrderedMap κ α :=
  if m.contains k then m else m.insert k v

/-- As `insertNew`; the answer is the value that the key has then, and whether it was there before. -/
def loadOrStore (m : OrderedMap κ α) (k : κ) (v : α) : (α × Bool) × OrderedMap κ α :=
  (((m.get? k).getD v, m.contains k), m.insertNew k v)

def ofList (entries : List (κ × α)) : OrderedMap κ α :=
  entries.foldl (fun m e => m.insert e.1 e.2) empty

end OrderedMap

end ShaderStyle
