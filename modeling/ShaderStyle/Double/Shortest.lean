import ShaderStyle.Double.Basic

/-! The fewest decimal digits that read back as a given binary number. -/
namespace ShaderStyle

/-- The number `coefficient * 10 ^ exponent`. -/
structure Decimal where
  coefficient : Nat
  exponent : Int
  deriving DecidableEq

namespace Decimal

def toRat (d : Decimal) : Rat := d.coefficient * (10 : Rat) ^ d.exponent

def digits (d : Decimal) : List Char := Nat.toDigits 10 d.coefficient

/-- Where the point stands, counted from the first digit. -/
def point (d : Decimal) : Int := d.digits.length + d.exponent

/-- The same number without trailing zeros in its coefficient. -/
def trim (coefficient : Nat) (exponent : Int) : Decimal :=
  if coefficient % 10 = 0 ∧ coefficient ≠ 0 then trim (coefficient / 10) (exponent + 1)
  else ⟨coefficient, exponent⟩
termination_by coefficient
decreasing_by omega

end Decimal

/-- The largest `e` with `10 ^ e ≤ x`, for positive `x`. -/
def decimalExponent (x : Rat) : Int :=
  let e : Int := (Nat.toDigits 10 x.num.natAbs).length - (Nat.toDigits 10 x.den).length
  if x < (10 : Rat) ^ e then e - 1 else e

/-- An interval of rationals, with both ends or with neither. -/
structure Interval where
  low : Rat
  high : Rat
  closed : Bool

def Interval.contains (i : Interval) (x : Rat) : Bool :=
  if i.closed then i.low ≤ x && x ≤ i.high else i.low < x && x < i.high

/-- The rationals that round to a positive value of the format. Below a power of two the
values lie twice as dense. -/
def BinaryFormat.neighbourhood (f : BinaryFormat) (x : Rat) : Interval :=
  let place := f.lastPlace x
  let unit := (2 : Rat) ^ place
  let boundary := x = (2 : Rat) ^ binaryExponent x && f.minExponent < place
  { low := x - (if boundary then unit / 4 else unit / 2)
    high := x + unit / 2
    closed := (x / unit).floor % 2 = 0 }

/-- The point of the grid with `count` digits that lies in the interval; of two the nearer one
to `x`, and the even one at the same distance. -/
def Interval.pick (i : Interval) (x : Rat) (count : Nat) : Option Decimal :=
  let e := decimalExponent x - count + 1
  let unit := (10 : Rat) ^ e
  let k := (x / unit).floor.toNat
  let below := k * unit
  let above := (k + 1) * unit
  let down := x - below < above - x || (x - below = above - x && k % 2 = 0)
  match i.contains below, i.contains above with
  | true, true => some (.trim (if down then k else k + 1) e)
  | true, false => some (.trim k e)
  | false, true => some (.trim (k + 1) e)
  | false, false => none

/-- Seventeen digits tell any two values of the supported formats apart. -/
def maxDigits : Nat := 17

/-- The shortest decimal that rounds to a positive value of the format. -/
def BinaryFormat.shortest (f : BinaryFormat) (x : Rat) : Decimal :=
  let i := f.neighbourhood x
  match (List.range maxDigits).findSome? fun n => i.pick x (n + 1) with
  | some d => d
  | none => .trim (roundEven (x * (10 : Rat) ^ maxDigits)).toNat (-maxDigits)

end ShaderStyle
