import ShaderStyle.Kind

/-! The operators of style expressions with their signatures. -/
namespace ShaderStyle

inductive Op where
  | invalid
  | mul | add | sub | div
  | mod | pow | clamp | abs | floor | ceil | round | sin | cos | sqrt | atan
  | greater | greaterEq | less | lessEq | equal | notEqual
  | not | all | any | between
  | array | color
  deriving DecidableEq, Inhabited

namespace Op

/-- The operators in the order of their codes, which start at one. -/
def valid : List Op := [
  .mul, .add, .sub, .div,
  .mod, .pow, .clamp, .abs, .floor, .ceil, .round, .sin, .cos, .sqrt, .atan,
  .greater, .greaterEq, .less, .lessEq, .equal, .notEqual,
  .not, .all, .any, .between,
  .array, .color]

def name : Op → String
  | .invalid => "invalid"
  | .mul => "*"
  | .add => "+"
  | .sub => "-"
  | .div => "/"
  | .mod => "%"
  | .pow => "^"
  | .clamp => "clamp"
  | .abs => "abs"
  | .floor => "floor"
  | .ceil => "ceil"
  | .round => "round"
  | .sin => "sin"
  | .cos => "cos"
  | .sqrt => "sqrt"
  | .atan => "atan"
  | .greater => ">"
  | .greaterEq => ">="
  | .less => "<"
  | .lessEq => "<="
  | .equal => "=="
  | .notEqual => "!="
  | .not => "!"
  | .all => "all"
  | .any => "any"
  | .between => "between"
  | .array => "array"
  | .color => "color"

def ofName? (s : String) : Option Op := valid.find? fun op => op.name == s

def code (op : Op) : Nat :=
  match valid.findIdx? (· == op) with
  | some i => i + 1
  | none => 0

def ofCode (n : Nat) : Op :=
  match n with
  | 0 => .invalid
  | i + 1 => valid[i]?.getD .invalid

/-- Whether vectors mix with numbers. -/
def isArithmetic : Op → Bool
  | .mul | .add | .sub | .div => true
  | _ => false

/-- How many operands an operator takes; without a maximum, any number from the minimum on. -/
structure Arity where
  min : Nat
  max : Option Nat

def Arity.exactly (n : Nat) : Arity := ⟨n, some n⟩

def arity : Op → Arity
  | .invalid => .exactly 0
  | .mul | .add | .all | .any => ⟨2, none⟩
  | .sub | .div | .mod | .pow => .exactly 2
  | .greater | .greaterEq | .less | .lessEq | .equal | .notEqual => .exactly 2
  | .clamp | .between => .exactly 3
  | .abs | .floor | .ceil | .round | .sin | .cos | .sqrt | .not => .exactly 1
  | .atan => ⟨1, some 2⟩
  | .array => ⟨2, some 4⟩
  | .color => ⟨3, some 4⟩

/-- The kind of all operands, or none where they only have to agree with each other. -/
def operandKind? : Op → Option Kind
  | .invalid | .mul | .add | .sub | .div | .equal | .notEqual => none
  | .not | .all | .any => some .boolean
  | _ => some .number

/-- The type of a call with `count` operands. Arithmetic has the type of its vectors instead. -/
def resultType (count : Nat) : Op → Ty
  | .invalid => .invalid
  | .greater | .greaterEq | .less | .lessEq | .equal | .notEqual => .boolean
  | .not | .all | .any | .between => .boolean
  | .array => .array count
  | .color => .color
  | _ => .number

end Op

end ShaderStyle
