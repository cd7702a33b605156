import ShaderStyle.Double.Basic

/-! Reading numbers from text: decimal and hexadecimal notation, infinities and NaN. -/
namespace ShaderStyle

/-- What a text says as a number. -/
inductive NumberReading where
  | value (x : Double)
  /-- A number too large for any finite double. -/
  | overflow (negative : Bool)
  | malformed
  deriving DecidableEq

namespace NumberReading

def value? : NumberReading → Option Double
  | .value x => some x
  | _ => none

/-- The number to go on with: the infinity for an overflow and zero for no number. -/
def fallback : NumberReading → Double
  | .value x => x
  | .overflow negative => .infinity negative
  | .malformed => .finite 0

end NumberReading

namespace Numeral

/-- The value of a digit in bases up to sixteen. -/
def digitValue? (base : Nat) (c : Char) : Option Nat :=
  let n := c.toNat
  let v :=
    if '0'.toNat ≤ n ∧ n ≤ '9'.toNat then n - '0'.toNat
    else if 'a'.toNat ≤ n ∧ n ≤ 'f'.toNat then n - 'a'.toNat + 10
    else if 'A'.toNat ≤ n ∧ n ≤ 'F'.toNat then n - 'A'.toNat + 10
    else base
  if v < base then some v else none

def isDigit (base : Nat) (c : Char) : Bool := (digitValue? base c).isSome

/-- The value of a run of digits; other characters are passed over. -/
def digitsValue (base : Nat) (cs : List Char) : Nat :=
  cs.foldl (fun acc c => acc * base + (digitValue? base c).getD 0) 0

/-- Splits off an optional sign. -/
def takeSign : List Char → Bool × List Char
  | '-' :: cs => (true, cs)
  | '+' :: cs => (false, cs)
  | cs => (false, cs)

/-- Splits off the prefix of hexadecimal notation when something follows it. -/
def takeBase : List Char → Nat × List Char
  | '0' :: 'x' :: c :: cs => (16, c :: cs)
  | '0' :: 'X' :: c :: cs => (16, c :: cs)
  | cs => (10, cs)

/-- Separators stand between two digits, the base mark counting as one. `ready` says that the
character before is a digit. -/
def separatorsOk (base : Nat) : Bool → List Char → Bool
  | _, [] => true
  | _, ['_'] => false
  | ready, '_' :: c :: cs => ready && isDigit base c && separatorsOk base true cs
  | _, c :: cs => separatorsOk base (isDigit base c) cs

/-- A mantissa, which is an integer, and the power of the exponent base that scales it. -/
structure Scaled where
  mantissa : Nat
  exponent : Int

/-- Exponents are read up to five digits; more cannot matter. -/
def exponentValue (cs : List Char) : Nat :=
  cs.foldl (fun acc c =>
    match digitValue? 10 c with
    | some v => if acc < 10000 then acc * 10 + v else acc
    | none => acc) 0

/-- Splits a mantissa from what follows it: digits with separators and at most one point. -/
def takeMantissa (base : Nat) (cs : List Char) : List Char × List Char × List Char :=
  let part (c : Char) := isDigit base c || c == '_'
  let whole := cs.takeWhile part
  match cs.dropWhile part with
  | '.' :: rest => (whole, rest.takeWhile part, rest.dropWhile part)
  | rest => (whole, [], rest)

/-- Reads the exponent after its mark. -/
def exponent? (cs : List Char) : Option Int :=
  let (negative, ds) := takeSign cs
  match ds with
  | [] => none
  | c :: _ =>
    if isDigit 10 c && ds.all (fun d => isDigit 10 d || d == '_') then
      let e : Int := exponentValue ds
      some (if negative then -e else e)
    else none

/-- Reads an unsigned number whose base mark is gone. A hexadecimal one needs an exponent. -/
def scaled? (base : Nat) (cs : List Char) : Option Scaled :=
  let (whole, fraction, rest) := takeMantissa base cs
  let digits := whole ++ fraction
  let places : Int := (fraction.countP (isDigit base) : Nat)
  let mark := if base = 16 then 'p' else 'e'
  let bits : Int := if base = 16 then 4 else 1
  if digits.any (isDigit base) then
    match rest with
    | [] => if base = 16 then none else some ⟨digitsValue base (digits.filter (isDigit base)), -places⟩
    | c :: cs =>
      if c.toLower = mark then
        (exponent? cs).map fun e =>
          ⟨digitsValue base (digits.filter (isDigit base)), e - bits * places⟩
      else none
  else none

/-- Rounds a scaled number. Magnitudes far outside of the format are settled by their exponent. -/
def Scaled.reading (radix : Nat) (negative : Bool) (s : Scaled) : NumberReading :=
  let sign (x : Rat) : Rat := if negative then -x else x
  if s.mantissa = 0 then .value (.zero negative)
  else if 5000 < s.exponent then .overflow negative
  else if s.exponent < -5000 - 4 * (Nat.log2 s.mantissa : Int) then .value (.zero negative)
  else
    match Double.ofRat (sign (s.mantissa * (radix : Rat) ^ s.exponent)) with
    | .infinity _ => .overflow negative
    | x => .value x

/-- The words for the numbers without digits, in any case. A NaN takes no sign. -/
def word? (cs : List Char) : Option Double :=
  let lower := cs.map Char.toLower
  let (negative, body) := takeSign lower
  if body = "inf".toList || body = "infinity".toList then some (.infinity negative)
  else if lower = "nan".toList then some .nan
  else none

end Numeral

/-- Reads a whole text as a double. -/
def Double.read (s : String) : NumberReading :=
  let cs := s.toList
  match Numeral.word? cs with
  | some x => .value x
  | none =>
    let (negative, unsigned) := Numeral.takeSign cs
    let (base, body) := Numeral.takeBase unsigned
    match Numeral.scaled? base body with
    | none => .malformed
    | some scaled =>
      if Numeral.separatorsOk base (base == 16) body then
        scaled.reading (if base = 16 then 2 else 10) negative
      else .malformed

end ShaderStyle
