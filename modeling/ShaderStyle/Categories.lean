/-! Numbers for texts, so that shaders can compare them. -/
namespace ShaderStyle

/-- Texts numbered in the order of their registration. A frozen table takes no new ones. -/
structure Categories where
  names : List String := []
  frozen : Bool := false

namespace Categories

def index? (c : Categories) (s : String) : Option Nat := c.names.findIdx? (· == s)

/-- The number that stands for a text; minus one stands for all texts outside of the table. -/
def number (c : Categories) (s : String) : Int :=
  match c.index? s with
  | some i => i
  | none => -1

def register (c : Categories) (s : String) : Categories :=
  if c.frozen || s ∈ c.names then c else { c with names := c.names ++ [s] }

def freeze (c : Categories) : Categories := { c with frozen := true }

def size (c : Categories) : Nat := c.names.length

/-- The texts with their numbers, in order. -/
def entries (c : Categories) : List (String × Nat) := c.names.zipIdx

end Categories

end ShaderStyle
