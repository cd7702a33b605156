import ShaderStyle.Value.Basic

/-! What an unquoted scalar stands for. -/
namespace ShaderStyle.Scalar

/-- Splits off the mark of a base other than ten; a zero in front is one for base eight. -/
def takeIntegerBase (cs : List Char) : Nat × List Char :=
  match cs with
  | '0' :: mark :: c :: rest =>
    match mark.toLower with
    | 'b' => (2, c :: rest)
    | 'o' => (8, c :: rest)
    | 'x' => (16, c :: rest)
    | _ => (8, mark :: c :: rest)
  | '0' :: rest => (8, rest)
  | _ => (10, cs)

/-- The value of an integer without sign. -/
def natural? (cs : List Char) : Option Nat :=
  let (base, digits) := takeIntegerBase cs
  if cs ≠ [] && digits.all (Numeral.isDigit base) then some (Numeral.digitsValue base digits)
  else none

/-- The first integer that is too large for a signed type. -/
def signedBound : Nat := 9223372036854775808

/-- An integer with a sign, if a signed type holds it. -/
def signed? (negative : Bool) (n : Nat) : Option Value :=
  if n < signedBound || (negative && n = signedBound) then
    some (.integer .int (if negative then -n else n))
  else none

/-- An integer as the narrowest type that holds it: signed if it can be, and unsigned if it is
written without a sign. -/
def integer? (cs : List Char) : Option Value := do
  let (negative, digits) := Numeral.takeSign cs
  let n ← natural? digits
  signed? negative n <|>
    if digits.length = cs.length && n < 2 * signedBound then some (.integer .uint64 n) else none

/-- An integer whose sign stands behind the mark of its base. -/
def lateSigned? (cs : List Char) : Option Value :=
  let read (base : Nat) (rest : List Char) : Option Value :=
    let (negative, digits) := Numeral.takeSign rest
    if !digits.isEmpty && digits.all (Numeral.isDigit base) then
      signed? negative (Numeral.digitsValue base digits)
    else none
  match cs with
  | '0' :: 'b' :: rest => read 2 rest
  | '0' :: 'o' :: rest => read 8 rest
  | _ => none

/-- Decimal notation: digits with at most one point, and an exponent. -/
def isDecimal (cs : List Char) : Bool :=
  let unsigned := (Numeral.takeSign cs).2
  let isDigit := Numeral.isDigit 10
  let whole := unsigned.takeWhile isDigit
  let rest := unsigned.dropWhile isDigit
  let (fraction, rest) := match rest with
    | '.' :: more => (more.takeWhile isDigit, more.dropWhile isDigit)
    | _ => ([], rest)
  (!whole.isEmpty || !fraction.isEmpty) &&
    match rest with
    | [] => true
    | mark :: more =>
      let digits := (Numeral.takeSign more).2
      mark.toLower == 'e' && !digits.isEmpty && digits.all isDigit

def double? (s : String) : Option Value := (Double.read s).value?.map .double

/-- A scalar that starts like a number. Underscores between its digits do not count. -/
def number? (s : String) : Option Value :=
  let cs := s.toList.filter (· != '_')
  integer? cs <|> (if isDecimal cs then double? (String.ofList cs) else none) <|> lateSigned? cs

/-- The words with a meaning of their own. -/
def word? : String → Option Value
  | "" | "~" | "null" | "Null" | "NULL" => some .null
  | "true" | "True" | "TRUE" => some (.bool true)
  | "false" | "False" | "FALSE" => some (.bool false)
  | ".nan" | ".NaN" | ".NAN" => some (.double .nan)
  | ".inf" | ".Inf" | ".INF" | "+.inf" | "+.Inf" | "+.INF" => some (.double (.infinity false))
  | "-.inf" | "-.Inf" | "-.INF" => some (.double (.infinity true))
  | _ => none

/-- The value of a plain scalar. -/
def resolve (s : String) : Value :=
  match word? s with
  | some v => v
  | none =>
    let meaning :=
      match s.toList with
      | [] => none
      | c :: _ =>
        if c == '.' then double? s
        else if c == '+' || c == '-' || Numeral.isDigit 10 c then
          (Timestamp.read? s).map Value.timestamp <|> number? s
        else none
    meaning.getD (.text s)

end ShaderStyle.Scalar
