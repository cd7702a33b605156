import Mathlib.Algebra.GroupWithZero.Nat
import ShaderStyle.Proofs.Glsl.Literal
import ShaderStyle.Proofs.Shader

/-! Types of shader expressions. -/
namespace ShaderStyle.Glsl

inductive ValueType where
  | bool
  | float
  | vec (size : Nat)
  deriving DecidableEq

namespace ValueType

/-- The type that a declaration names. -/
def ofName? : String → Option ValueType
  | "bool" => some .bool
  | "float" => some .float
  | "vec2" => some (.vec 2)
  | "vec3" => some (.vec 3)
  | "vec4" => some (.vec 4)
  | _ => none

/-- How many numbers make up a value; a boolean is none. -/
def components : ValueType → Nat
  | .bool => 0
  | .float => 1
  | .vec size => size

/-- Arithmetic works component by component, and a number goes with every vector. -/
def arithmetic? : ValueType → ValueType → Option ValueType
  | .float, .float => some .float
  | .float, .vec n | .vec n, .float => some (.vec n)
  | .vec n, .vec m => if n = m then some (.vec n) else none
  | _, _ => none

/-- A vector is made from one number or from parts with as many components. -/
def vector? (size : Nat) (parts : List ValueType) : Option ValueType :=
  if parts = [.float] ∨ (.bool ∉ parts ∧ (parts.map components).sum = size) then some (.vec size)
  else none

/-- Fields are components by their names as coordinates or as a color. -/
def field? (name : String) : ValueType → Option ValueType
  | .vec size =>
    let within (letters : List Char) := name.toList.all ((letters.take size).contains ·)
    if within "xyzw".toList || within "rgba".toList then
      match name.toList.length with
      | 0 => none
      | 1 => some .float
      | n => some (.vec n)
    else none
  | _ => none

end ValueType

/-- The type of an operation, by the types of its operands. -/
def BinaryOp.type? (op : BinaryOp) (x y : ValueType) : Option ValueType :=
  match op with
  | .mul | .add | .sub | .div => x.arithmetic? y
  | .greater | .greaterEq | .less | .lessEq => if x = .float ∧ y = .float then some .bool else none
  | .equal | .notEqual => if x = y then some .bool else none
  | .and | .or => if x = .bool ∧ y = .bool then some .bool else none

/-- What an expression can refer to: names with their types, and the helper for packed colors if
it is defined. -/
structure Environment where
  name? : String → Option ValueType
  unpacks : Bool

/-- The type of a call, by the types of the arguments. -/
def Environment.call? (env : Environment) (f : String) (args : List ValueType) : Option ValueType :=
  match f, args with
  | "vec2", parts => ValueType.vector? 2 parts
  | "vec3", parts => ValueType.vector? 3 parts
  | "vec4", parts => ValueType.vector? 4 parts
  | "mod", [.float, .float] | "pow", [.float, .float] => some .float
  | "clamp", [.float, .float, .float] => some .float
  | "abs", [.float] | "floor", [.float] | "ceil", [.float] => some .float
  | "sin", [.float] | "cos", [.float] | "sqrt", [.float] => some .float
  | "atan", [.float] | "atan", [.float, .float] => some .float
  | "mix", [x, y, .float] => if x = y ∧ x ≠ .bool then some x else none
  | "unpackColor", [.vec 2] => if env.unpacks then some (.vec 4) else none
  | _, _ => none

namespace Tree

mutual

/-- The type of an expression that keeps the rules. -/
def type? (env : Environment) : Tree → Option ValueType
  | .number _ => some .float
  | .bool _ => some .bool
  | .name ident => env.name? ident
  | .call f args => do env.call? f (← types? env args)
  | .field x letters => do (← x.type? env).field? letters
  | .negate x => do
    let t ← x.type? env
    if t = .bool then none else some t
  | .not x => do
    let t ← x.type? env
    if t = .bool then some .bool else none
  | .binary op x y => do op.type? (← x.type? env) (← y.type? env)
  | .choose condition yes no => do
    let c ← condition.type? env
    let t ← yes.type? env
    let u ← no.type? env
    if c = .bool ∧ t = u then some t else none

def types? (env : Environment) : List Tree → Option (List ValueType)
  | [] => some []
  | x :: xs => do
    let t ← x.type? env
    let ts ← types? env xs
    return t :: ts

end

variable {env : Environment}

@[simp] theorem type?_literal (x : Double) : (literal x).type? env = some .float := by
  unfold literal
  split
  · rfl
  · rfl

theorem type?_call (f : String) {args : List Tree} {ts : List ValueType}
    (h : types? env args = some ts) : (call f args).type? env = env.call? f ts := by
  rw [type?, h]
  rfl

theorem type?_binary (op : BinaryOp) {x y : Tree} {t u : ValueType} (hx : x.type? env = some t)
    (hy : y.type? env = some u) : (binary op x y).type? env = op.type? t u := by
  rw [type?, hx, hy]
  rfl

theorem type?_choose {condition yes no : Tree} {t : ValueType}
    (hc : condition.type? env = some .bool) (hy : yes.type? env = some t)
    (hn : no.type? env = some t) : (choose condition yes no).type? env = some t := by
  rw [type?, hc, hy, hn]
  simp

theorem types?_cons {x : Tree} {xs : List Tree} {t : ValueType} {ts : List ValueType}
    (hx : x.type? env = some t) (hxs : types? env xs = some ts) :
    types? env (x :: xs) = some (t :: ts) := by
  rw [types?, hx, hxs]
  rfl

/-- Arguments that all have one type. -/
theorem types?_replicate {xs : List Tree} {t : ValueType} (h : ∀ x ∈ xs, x.type? env = some t) :
    types? env xs = some (List.replicate xs.length t) := by
  induction xs with
  | nil => rfl
  | cons x xs ih =>
    rw [List.length_cons, List.replicate_succ]
    exact types?_cons (h x (by simp)) (ih fun x hx => h x (by simp [hx]))

end Tree

end ShaderStyle.Glsl
