/-! Binary floating-point numbers as exact rationals, rounded to nearest with ties to even. -/
namespace ShaderStyle

/-- A binary floating-point number. Zero with a minus sign is kept apart from `finite 0`. -/
inductive Double where
  | nan
  | infinity (negative : Bool)
  | negativeZero
  | finite (value : Rat)
  deriving DecidableEq, Inhabited

/-- The sizes that fix which rationals are representable. -/
structure BinaryFormat where
  /-- Number of significant bits. -/
  precision : Nat
  /-- Exponent of the least positive value. -/
  minExponent : Int
  /-- Magnitudes from two to this power on are infinite. -/
  overflowExponent : Int

namespace BinaryFormat

def binary64 : BinaryFormat := ⟨53, -1074, 1024⟩

def binary32 : BinaryFormat := ⟨24, -149, 128⟩

end BinaryFormat

/-- The nearest integer, the even one at a midpoint. -/
def roundEven (x : Rat) : Int :=
  let k := x.floor
  if x - k < 1 / 2 then k
  else if 1 / 2 < x - k then k + 1
  else k + k % 2

/-- The nearest integer, the one of larger magnitude at a midpoint. -/
def roundAway (x : Rat) : Int :=
  if x < 0 then -(-x + 1 / 2).floor else (x + 1 / 2).floor

/-- The largest `e` with `2 ^ e ≤ x`, for positive `x`. -/
def binaryExponent (x : Rat) : Int :=
  let e : Int := (x.num.natAbs.log2 : Int) - (x.den.log2 : Int)
  if x < (2 : Rat) ^ e then e - 1 else e

namespace BinaryFormat

/-- The exponent of the last place of a positive rational. -/
def lastPlace (f : BinaryFormat) (x : Rat) : Int :=
  let e := binaryExponent x - (f.precision - 1 : Nat)
  if e < f.minExponent then f.minExponent else e

/-- The representable number nearest to a positive rational, before the overflow test. -/
def nearest (f : BinaryFormat) (x : Rat) : Rat :=
  let unit := (2 : Rat) ^ f.lastPlace x
  roundEven (x / unit) * unit

/-- Rounds a rational; the sign survives when the magnitude vanishes. -/
def round (f : BinaryFormat) (x : Rat) : Double :=
  if x = 0 then .finite 0
  else
    let magnitude := f.nearest (if x < 0 then -x else x)
    if (2 : Rat) ^ f.overflowExponent ≤ magnitude then .infinity (x < 0)
    else if magnitude = 0 then if x < 0 then .negativeZero else .finite 0
    else .finite (if x < 0 then -magnitude else magnitude)

end BinaryFormat

namespace Double

/-- The double nearest to a rational. -/
def ofRat (x : Rat) : Double := BinaryFormat.binary64.round x

def ofInt (n : Int) : Double := ofRat n

def ofNat (n : Nat) : Double := ofInt n

def zero (negative : Bool) : Double := if negative then .negativeZero else .finite 0

/-- The value of a finite number; the others count as zero. -/
def toRat : Double → Rat
  | .finite x => x
  | _ => 0

def isFinite : Double → Bool
  | .nan | .infinity _ => false
  | _ => true

def isNan : Double → Bool
  | .nan => true
  | _ => false

def isZero : Double → Bool
  | .negativeZero => true
  | .finite x => x = 0
  | _ => false

/-- The sign bit. -/
def isNegative : Double → Bool
  | .nan => false
  | .infinity negative => negative
  | .negativeZero => true
  | .finite x => x < 0

/-- Rounds to the narrower format, whose values are doubles again. -/
def toSingle : Double → Double
  | .finite x => BinaryFormat.binary32.round x
  | x => x

/-- Rounds an exact result, taking the given sign when it is zero. -/
def rounded (negative : Bool) (x : Rat) : Double :=
  if x = 0 then zero negative else ofRat x

def add : Double → Double → Double
  | .nan, _ | _, .nan => .nan
  | .infinity s, .infinity t => if s = t then .infinity s else .nan
  | .infinity s, _ => .infinity s
  | _, .infinity t => .infinity t
  | x, y => rounded (x.isNegative && y.isNegative) (x.toRat + y.toRat)

def mul : Double → Double → Double
  | .nan, _ | _, .nan => .nan
  | .infinity s, y => if y.isZero then .nan else .infinity (s != y.isNegative)
  | x, .infinity t => if x.isZero then .nan else .infinity (x.isNegative != t)
  | x, y => rounded (x.isNegative != y.isNegative) (x.toRat * y.toRat)

def div : Double → Double → Double
  | .nan, _ | _, .nan => .nan
  | .infinity _, .infinity _ => .nan
  | .infinity s, y => .infinity (s != y.isNegative)
  | x, .infinity t => zero (x.isNegative != t)
  | x, y =>
    if y.isZero then if x.isZero then .nan else .infinity (x.isNegative != y.isNegative)
    else rounded (x.isNegative != y.isNegative) (x.toRat / y.toRat)

/-- Rounds to an integer, a half away from zero. -/
def round : Double → Double
  | .finite x =>
    let k := roundAway x
    if k = 0 then zero (x < 0) else .finite k
  | x => x

/-- Comparison; nothing compares with a NaN. -/
def le : Double → Double → Bool
  | .nan, _ | _, .nan => false
  | .infinity s, .infinity t => s || !t
  | .infinity s, _ => s
  | _, .infinity t => !t
  | x, y => x.toRat ≤ y.toRat

def lt (x y : Double) : Bool := x.le y && !y.le x

/-- The larger number. Plus infinity wins over NaN, NaN over the rest, plus zero over minus zero. -/
def max (x y : Double) : Double :=
  if x = .infinity false || y = .infinity false then .infinity false
  else if x.isNan || y.isNan then .nan
  else if x.isZero && y.isZero then if x.isNegative then y else x
  else if y.lt x then x else y

/-- The smaller number. Minus infinity wins over NaN, NaN over the rest, minus zero over plus zero. -/
def min (x y : Double) : Double :=
  if x = .infinity true || y = .infinity true then .infinity true
  else if x.isNan || y.isNan then .nan
  else if x.isZero && y.isZero then if x.isNegative then x else y
  else if x.lt y then x else y

end Double

end ShaderStyle
