/-! Kinds and types of style expressions, and the sets of kinds used to infer them. -/
namespace ShaderStyle

/-- What an expression can denote. The order is the priority when the context leaves a choice. -/
inductive Kind where
  | number
  | boolean
  /-- A category: texts are compared through their index. -/
  | string
  | color
  | array
  deriving DecidableEq, Inhabited

namespace Kind

def all : List Kind := [.number, .boolean, .string, .color, .array]

/-- The bit that stands for the kind in a set. -/
def code : Kind → Nat
  | .number => 1
  | .boolean => 2
  | .string => 3
  | .color => 4
  | .array => 5

def ofCode? (n : Nat) : Option Kind := all.find? fun k => k.code == n

def name : Kind → String
  | .number => "number"
  | .boolean => "boolean"
  | .string => "string"
  | .color => "color"
  | .array => "number[]"

def ofName? (s : String) : Option Kind := all.find? fun k => k.name == s

/-- Whether values of the kind are vectors in shaders. -/
def isVector : Kind → Bool
  | .color | .array => true
  | _ => false

/-- The name of a kind that may be missing. -/
def nameOrInvalid : Option Kind → String
  | some k => k.name
  | none => "invalid"

end Kind

/-- Components of an array whose size nothing fixes. -/
def defaultArraySize : Nat := 4

/-- The type of a resolved expression. -/
inductive Ty where
  | invalid
  | number
  | boolean
  | string
  | color
  | array (size : Nat)
  deriving DecidableEq, Inhabited

namespace Ty

def kind? : Ty → Option Kind
  | .invalid => none
  | .number => some .number
  | .boolean => some .boolean
  | .string => some .string
  | .color => some .color
  | .array _ => some .array

/-- The type of a kind when arrays have `size` components. -/
def ofKind (size : Nat) : Kind → Ty
  | .number => .number
  | .boolean => .boolean
  | .string => .string
  | .color => .color
  | .array => .array size

/-- How many numbers make up a value inside an expression. -/
def components : Ty → Nat
  | .invalid => 0
  | .color => 4
  | .array size => size
  | _ => 1

def name : Ty → String
  | .array size => "number[" ++ toString size ++ "]"
  | t => Kind.nameOrInvalid t.kind?

end Ty

/-- A set of kinds, one bit for each. -/
structure TypeSet where
  bits : BitVec 8
  deriving DecidableEq, Inhabited

namespace TypeSet

def empty : TypeSet := ⟨0⟩

def singleton (k : Kind) : TypeSet := ⟨BitVec.twoPow 8 k.code⟩

def union (s t : TypeSet) : TypeSet := ⟨s.bits ||| t.bits⟩

def inter (s t : TypeSet) : TypeSet := ⟨s.bits &&& t.bits⟩

def ofList (ks : List Kind) : TypeSet := ks.foldr (fun k s => (singleton k).union s) empty

def any : TypeSet := ofList Kind.all

def has (s : TypeSet) (k : Kind) : Bool := s.bits.getLsbD k.code

def isEmpty (s : TypeSet) : Bool := s.bits == 0

/-- The codes of the bits that are set, in order. -/
def codes (s : TypeSet) : List Nat := (List.range 8).filter s.bits.getLsbD

/-- Whether exactly one bit is set. -/
def isSingleton (s : TypeSet) : Bool := s.codes.length == 1

/-- The kind of highest priority. -/
def pick (s : TypeSet) : Option Kind := s.codes.head?.bind Kind.ofCode?

/-- The only kind of the set. -/
def unique? (s : TypeSet) : Option Kind := if s.isSingleton then s.pick else none

def kinds (s : TypeSet) : List Kind := Kind.all.filter s.has

def name (s : TypeSet) : String :=
  if s = any then "any"
  else if s.kinds.isEmpty then "none"
  else "|".intercalate (s.kinds.map Kind.name)

def numbers : TypeSet := singleton .number

def booleans : TypeSet := singleton .boolean

def vectors : TypeSet := ofList [.color, .array]

/-- What can be added, scaled and interpolated. -/
def mixable : TypeSet := ofList [.number, .color, .array]

end TypeSet

/-- The kinds a value of the type has. -/
def Ty.set (t : Ty) : TypeSet :=
  match t.kind? with
  | some k => .singleton k
  | none => .empty

end ShaderStyle
