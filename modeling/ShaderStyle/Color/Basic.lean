import ShaderStyle.Double.Basic

/-! Colors, their rounding to eight bits a channel, and their packing into two numbers. -/
namespace ShaderStyle

/-- The arithmetic that colors need. It is written once for floating-point numbers and for
exact rationals. -/
class Scalar (α : Type) extends Add α, Mul α, Div α where
  ofNat : Nat → α
  /-- The nearest integer, a half going away from zero. -/
  round : α → α
  min : α → α → α
  max : α → α → α

instance : Scalar Double where
  add := Double.add
  mul := Double.mul
  div := Double.div
  ofNat := Double.ofNat
  round := Double.round
  min := Double.min
  max := Double.max

instance : Scalar Rat where
  ofNat n := n
  round x := roundAway x
  min x y := if x ≤ y then x else y
  max x y := if x ≤ y then y else x

/-- A color. Red, green and blue run from 0 to 255 and alpha from 0 to 1; channels given as an
array are neither rounded nor clamped. -/
structure Color (α : Type) where
  red : α
  green : α
  blue : α
  alpha : α
  deriving DecidableEq, Inhabited

abbrev Rgba := Color Double

namespace Color

variable {α : Type} [Scalar α]

def clamp (low high : Nat) (x : α) : α :=
  Scalar.min (Scalar.max x (Scalar.ofNat low)) (Scalar.ofNat high)

/-- A channel rounded to eight bits. -/
def channel8 (x : α) : α := clamp 0 255 (Scalar.round x)

/-- Alpha as an eight-bit number. -/
def alpha8 (x : α) : α := Scalar.round (clamp 0 1 x * Scalar.ofNat 255)

def quantize (c : Color α) : Color α where
  red := channel8 c.red
  green := channel8 c.green
  blue := channel8 c.blue
  alpha := alpha8 c.alpha / Scalar.ofNat 255

def toList (c : Color α) : List α := [c.red, c.green, c.blue, c.alpha]

/-- Channels scaled to one, with red, green and blue multiplied by alpha. -/
def premultiplied (c : Color α) : List α :=
  [c.red / Scalar.ofNat 255 * c.alpha,
   c.green / Scalar.ofNat 255 * c.alpha,
   c.blue / Scalar.ofNat 255 * c.alpha,
   c.alpha]

/-- A color in two numbers, two channels of eight bits in each. -/
structure Packed (α : Type) where
  redGreen : α
  blueAlpha : α
  deriving DecidableEq

def Packed.toList (p : Packed α) : List α := [p.redGreen, p.blueAlpha]

def pack (c : Color α) : Packed α where
  redGreen := c.quantize.red * Scalar.ofNat 256 + c.quantize.green
  blueAlpha := c.quantize.blue * Scalar.ofNat 256 + alpha8 c.alpha

/-- The color of eight bits a channel. -/
def ofBytes (red green blue alpha : Nat) : Color α where
  red := Scalar.ofNat red
  green := Scalar.ofNat green
  blue := Scalar.ofNat blue
  alpha := Scalar.ofNat alpha / Scalar.ofNat 255

/-- An opaque color. -/
def solid (red green blue : Nat) : Color α where
  red := Scalar.ofNat red
  green := Scalar.ofNat green
  blue := Scalar.ofNat blue
  alpha := Scalar.ofNat 1

def transparent : Color α where
  red := Scalar.ofNat 0
  green := Scalar.ofNat 0
  blue := Scalar.ofNat 0
  alpha := Scalar.ofNat 0

/-- A color from three channels, alpha being one, or from four. -/
def ofList? : List α → Option (Color α)
  | [r, g, b] => some ⟨r, g, b, Scalar.ofNat 1⟩
  | [r, g, b, a] => some ⟨r, g, b, a⟩
  | _ => none

end Color

end ShaderStyle
