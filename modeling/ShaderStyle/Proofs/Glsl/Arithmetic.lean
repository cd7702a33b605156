import Mathlib.Algebra.Order.Floor.Ring
import ShaderStyle.Proofs.Emission.Tree

/-! Exact arithmetic in the shading language: numbers are elements of an ordered field, and values
are lists of components. -/
namespace ShaderStyle.Glsl

/-- What arithmetic leaves open in the value of an expression. -/
structure Meaning (K : Type) where
  /-- The number that digits with a point stand for. -/
  digits : String → Option K
  power : K → K → K
  /-- Functions that are not computed here. -/
  function : String → List (List K) → Option (List K)
  /-- Names, and all that has to do with truth. -/
  other : Tree → Option (List K)

def BinaryOp.isArithmetic : BinaryOp → Bool
  | .mul | .add | .sub | .div => true
  | _ => false

section Operations

variable {K : Type} [Field K] [LinearOrder K]

/-- Combines components one by one; a single number goes with every component. -/
def componentwise (op : K → K → K) : List K → List K → Option (List K)
  | xs, [y] => some (xs.map (op · y))
  | [x], ys => some (ys.map (op x))
  | xs, ys => if xs.length = ys.length then some (List.zipWith op xs ys) else none

/-- The value of an operation. There is none where a divisor is zero. -/
def BinaryOp.value? (op : BinaryOp) (xs ys : List K) : Option (List K) :=
  match op with
  | .mul => componentwise (· * ·) xs ys
  | .add => componentwise (· + ·) xs ys
  | .sub => componentwise (· - ·) xs ys
  | .div => if 0 ∈ ys then none else componentwise (· / ·) xs ys
  | _ => none

/-- The vector of a number of components, from one number or from parts. -/
def vector? (size : Nat) : List (List K) → Option (List K)
  | [[x]] => some (List.replicate size x)
  | parts => if parts.flatten.length = size then some parts.flatten else none

/-- The weighted mean of the components. -/
def mixed (weight : K) (xs ys : List K) : List K :=
  List.zipWith (fun x y => x * (1 - weight) + y * weight) xs ys

variable [FloorRing K]

/-- The remainder of a division that rounds down. -/
def modulo (x y : K) : K := x - y * ⌊x / y⌋

/-- Unpacks a color into premultiplied channels. -/
def unpacked (redGreen blueAlpha : K) : List K :=
  let alpha := modulo blueAlpha 256 / 255
  [⌊redGreen / 256⌋ / 255 * alpha, modulo redGreen 256 / 255 * alpha,
    ⌊blueAlpha / 256⌋ / 255 * alpha, alpha]

/-- The value of a call, by the values of the arguments. -/
def Meaning.call? (m : Meaning K) (f : String) (args : List (List K)) : Option (List K) :=
  match f, args with
  | "vec2", parts => vector? 2 parts
  | "vec3", parts => vector? 3 parts
  | "vec4", parts => vector? 4 parts
  | "floor", [xs] => some (xs.map fun x => (⌊x⌋ : K))
  | "mod", [[x], [y]] => if y = 0 then none else some [modulo x y]
  | "pow", [[x], [y]] => some [m.power x y]
  | "clamp", [[x], [low], [high]] => some [min (max x low) high]
  | "mix", [xs, ys, [w]] => if xs.length = ys.length then some (mixed w xs ys) else none
  | "unpackColor", [[p, q]] => some (unpacked p q)
  | f, args => m.function f args

end Operations

variable {K : Type} [Field K] [LinearOrder K] [FloorRing K]

namespace Tree

mutual

/-- The components of the value of an expression. -/
def value? (m : Meaning K) : Tree → Option (List K)
  | .number text => (m.digits text).map fun x => [x]
  | .negate x => do
    let xs ← x.value? m
    return xs.map (- ·)
  | .binary op x y =>
    if op.isArithmetic then do op.value? (← x.value? m) (← y.value? m)
    else m.other (.binary op x y)
  | .call f args => do m.call? f (← values? m args)
  | x => m.other x

def values? (m : Meaning K) : List Tree → Option (List (List K))
  | [] => some []
  | x :: xs => do
    let v ← x.value? m
    let vs ← values? m xs
    return v :: vs

end

end Tree

namespace Meaning

variable (m : Meaning K)

/-- The value of a text that is an expression. -/
def read (text : String) : Option (List K) := (parse text).bind (Tree.value? m)

/-- Whether the literal of a number stands for the number. -/
def Reads (x : Double) : Prop := (Tree.literal x).value? m = some [(x.toRat : K)]

variable {m}

/-- A number without a sign is read as what its digits stand for. -/
theorem reads_of_digits {x : Double} (text : String) (htext : numberText x = text)
    (unsigned : text.toList.head? ≠ some '-') (h : m.digits text = some (x.toRat : K)) :
    m.Reads x := by
  have hliteral : Tree.literal x = .number text := by
    unfold Tree.literal
    rw [htext]
    split
    · next digits hsigned =>
      rw [hsigned] at unsigned
      exact absurd rfl unsigned
    · rw [String.ofList_toList]
  rw [Reads, hliteral, Tree.value?, h]
  rfl

end Meaning

namespace Tree

variable {m : Meaning K} {x y : Tree} {xs ys : List K}

theorem value?_call (f : String) {args : List Tree} {vs : List (List K)}
    (h : values? m args = some vs) : (call f args).value? m = m.call? f vs := by
  rw [value?, h]
  rfl

theorem value?_binary (op : BinaryOp) (arithmetic : op.isArithmetic = true)
    (hx : x.value? m = some xs) (hy : y.value? m = some ys) :
    (binary op x y).value? m = op.value? xs ys := by
  rw [value?, if_pos arithmetic, hx, hy]
  rfl

theorem values?_nil : values? m [] = some [] := rfl

theorem values?_cons {args : List Tree} {vs : List (List K)} (hx : x.value? m = some xs)
    (hargs : values? m args = some vs) : values? m (x :: args) = some (xs :: vs) := by
  rw [values?, hx, hargs]
  rfl

end Tree

end ShaderStyle.Glsl
