import ShaderStyle.Kind
import ShaderStyle.Double.Basic
import ShaderStyle.Operator
import ShaderStyle.Path

/-! Style expressions whose structure is checked and whose types are still open. -/
namespace ShaderStyle

/-- The type that a reference to a feature property asks for. -/
inductive Hint where
  /-- An array takes its size from the context. -/
  | kind (k : Kind)
  | sized (size : Nat)
  deriving DecidableEq

namespace Hint

def ofName? : String → Option Hint
  | "number" => some (.kind .number)
  | "string" => some (.kind .string)
  | "color" => some (.kind .color)
  | "boolean" => some (.kind .boolean)
  | "number[]" => some (.kind .array)
  | "number[2]" => some (.sized 2)
  | "number[3]" => some (.sized 3)
  | "number[4]" => some (.sized 4)
  | _ => none

/-- The type that is asked for where arrays have `size` components. -/
def type (size : Nat) : Hint → Ty
  | .kind k => .ofKind size k
  | .sized n => .array n

def set : Hint → TypeSet
  | .kind k => .singleton k
  | .sized _ => .singleton .array

end Hint

inductive Node where
  | number (path : Path) (x : Double)
  | bool (path : Path) (b : Bool)
  /-- A category, or a color if it reads as one. -/
  | text (path : Path) (s : String)
  /-- A vector, or a color if it has three or four components. -/
  | array (path : Path) (xs : List Double)
  | get (path : Path) (name : String) (hint : Option Hint)
  | var (path : Path) (name : String)
  | builtin (path : Path) (name : String)
  | call (path : Path) (op : Op) (args : List Node)
  | interpolate (path : Path) (exponent : Double) (input : Node) (stops : List (Node × Node))
  | select (path : Path) (input : Node) (alternatives : List (Node × Node)) (fallback : Node)
  | cases (path : Path) (alternatives : List (Node × Node)) (fallback : Node)
  deriving Inhabited

namespace Node

def path : Node → Path
  | .number p _ | .bool p _ | .text p _ | .array p _ | .get p _ _ | .var p _ | .builtin p _ => p
  | .call p _ _ | .interpolate p _ _ _ | .select p _ _ _ | .cases p _ _ => p

/-- The kind of a literal that serves as a label. -/
def labelKind? : Node → Option Kind
  | .number _ _ => some .number
  | .text _ _ => some .string
  | .bool _ _ => some .boolean
  | _ => none

end Node

end ShaderStyle
