import ShaderStyle.Double.Shortest

/-! Texts of numbers: positional notation, and the general notation that turns to an exponent for
very small and large magnitudes. -/
namespace ShaderStyle

namespace Decimal

private def zeros (n : Nat) : List Char := List.replicate n '0'

/-- Digits with a point where it belongs, and none after an integer. -/
def positional (d : Decimal) : String :=
  let ds := d.digits
  if d.point ≤ 0 then String.ofList ('0' :: '.' :: zeros (-d.point).toNat ++ ds)
  else
    let n := d.point.toNat
    if ds.length ≤ n then String.ofList (ds ++ zeros (n - ds.length))
    else String.ofList (ds.take n ++ '.' :: ds.drop n)

/-- The decimal exponent of the first digit. -/
def leading (d : Decimal) : Int := d.point - 1

/-- An exponent with its sign and at least `width` digits. -/
def exponentText (width : Nat) (e : Int) : String :=
  let ds := Nat.toDigits 10 e.natAbs
  String.ofList ((if e < 0 then '-' else '+') :: zeros (width - ds.length) ++ ds)

/-- One digit, the others after a point, and the exponent. -/
def scientific (width : Nat) (d : Decimal) : String :=
  let mantissa := match d.digits with
    | [] => []
    | [c] => [c]
    | c :: cs => c :: '.' :: cs
  String.ofList mantissa ++ "e" ++ exponentText width d.leading

/-- Positional from the fourth place after the point up to six places before it. -/
def general (d : Decimal) : String :=
  if d.leading < -4 || 6 ≤ d.leading then d.scientific 2 else d.positional

end Decimal

namespace Double

/-- Writes a number of the format with a layout for its shortest digits. -/
def textIn (f : BinaryFormat) (layout : Decimal → String) : Double → String
  | .nan => "NaN"
  | .infinity true => "-Inf"
  | .infinity false => "+Inf"
  | .negativeZero => "-" ++ layout ⟨0, 0⟩
  | .finite x =>
    if x = 0 then layout ⟨0, 0⟩
    else if x < 0 then "-" ++ layout (f.shortest (-x))
    else layout (f.shortest x)

def general : Double → String := textIn .binary64 Decimal.general

def positional : Double → String := textIn .binary64 Decimal.positional

/-- The general notation of a number of the narrower format. -/
def generalSingle : Double → String := textIn .binary32 Decimal.general

end Double

end ShaderStyle
