import ShaderStyle.Double.Reading

/-! Dates and times: how they are written in documents and how they show in messages. -/
namespace ShaderStyle

/-- A time of a day, in a time zone that is so many minutes ahead. -/
structure Timestamp where
  year : Nat
  month : Nat
  day : Nat
  hour : Nat := 0
  minute : Nat := 0
  second : Nat := 0
  nanosecond : Nat := 0
  zone : Int := 0
  deriving DecidableEq

namespace Timestamp

def isLeap (year : Nat) : Bool := year % 4 == 0 && (year % 100 != 0 || year % 400 == 0)

def daysIn (year month : Nat) : Nat :=
  if month = 2 then if isLeap year then 29 else 28
  else if [4, 6, 9, 11].contains month then 30
  else 31

/-- The days of the years before one. -/
def daysBeforeYear (year : Nat) : Nat :=
  year * 365 + (year + 3) / 4 - (year + 99) / 100 + (year + 399) / 400

/-- The days of the first months of a year. -/
def daysOfMonths (year : Nat) : Nat → Nat
  | 0 => 0
  | month + 1 => daysOfMonths year month + daysIn year (month + 1)

/-- The whole seconds since the start of the year zero. -/
def seconds (t : Timestamp) : Int :=
  let days := daysBeforeYear t.year + daysOfMonths t.year (t.month - 1) + (t.day - 1)
  let minutes : Int := ((days * 24 + t.hour) * 60 + t.minute : Nat)
  (minutes - t.zone) * 60 + t.second

/-! ## Reading -/

def isDigit : Char → Bool := Numeral.isDigit 10

/-- A number of one or two digits. -/
def number? (cs : List Char) : Option (Nat × List Char) :=
  let digits := (cs.take 2).takeWhile isDigit
  if digits.isEmpty then none
  else some (Numeral.digitsValue 10 digits, cs.drop digits.length)

/-- A number of one or two digits below a bound. -/
def below? (bound : Nat) (cs : List Char) : Option (Nat × List Char) := do
  let (n, rest) ← number? cs
  if n < bound then return (n, rest) else none

def expect? (c : Char) : List Char → Option (List Char)
  | d :: rest => if d = c then some rest else none
  | [] => none

/-- A year of four digits, a month and a day, with dashes between them. -/
def date? (cs : List Char) : Option (Timestamp × List Char) := do
  let digits := cs.takeWhile isDigit
  if digits.length ≠ 4 then none
  let year := Numeral.digitsValue 10 digits
  let (month, rest) ← number? (← expect? '-' (cs.drop 4))
  let (day, rest) ← number? (← expect? '-' rest)
  if 1 ≤ month && month ≤ 12 && 1 ≤ day && day ≤ daysIn year month then
    return ({ year, month, day }, rest)
  else none

/-- The part of a second behind a point or comma, to nine digits. -/
def fraction (cs : List Char) : Nat × List Char :=
  match cs with
  | [] => (0, [])
  | mark :: rest =>
    let digits := rest.takeWhile isDigit
    if (mark == '.' || mark == ',') && !digits.isEmpty then
      (Numeral.digitsValue 10 ((digits ++ List.replicate 9 '0').take 9), rest.dropWhile isDigit)
    else (0, cs)

/-- Adds the time of the day. -/
def time? (t : Timestamp) (cs : List Char) : Option (Timestamp × List Char) := do
  let (hour, rest) ← below? 24 cs
  let (minute, rest) ← below? 60 (← expect? ':' rest)
  let (second, rest) ← below? 60 (← expect? ':' rest)
  let (nanosecond, rest) := fraction rest
  return ({ t with hour, minute, second, nanosecond }, rest)

/-- The minutes of a time zone: none for `Z`, or hours and minutes of two digits behind a sign. -/
def zone? : List Char → Option Int
  | ['Z'] => some 0
  | [sign, h, i, ':', m, n] =>
    let hours := Numeral.digitsValue 10 [h, i]
    let minutes := Numeral.digitsValue 10 [m, n]
    if [h, i, m, n].all isDigit && hours ≤ 24 && minutes ≤ 60 then
      match sign with
      | '+' => some (hours * 60 + minutes : Nat)
      | '-' => some (-(hours * 60 + minutes : Nat))
      | _ => none
    else none
  | _ => none

/-- Reads a date alone, with a time and a zone behind a letter, or with a time behind spaces. -/
def read? (s : String) : Option Timestamp := do
  let (date, rest) ← date? s.toList
  match rest with
  | [] => return date
  | mark :: rest =>
    if mark = 'T' || mark = 't' then
      let (t, rest) ← date.time? rest
      return { t with zone := ← zone? rest }
    else if mark = ' ' then
      let (t, rest) ← date.time? (rest.dropWhile (· == ' '))
      if rest.isEmpty then return t else none
    else none

/-! ## Showing -/

/-- A number with zeros in front, to so many digits. -/
def padded (width n : Nat) : String :=
  let digits := Nat.toDigits 10 n
  String.ofList (List.replicate (width - digits.length) '0' ++ digits)

/-- The part of a second without zeros at its end. -/
def shownFraction (t : Timestamp) : String :=
  let digits := (padded 9 t.nanosecond).toList.reverse.dropWhile (· == '0')
  if digits.isEmpty then "" else "." ++ String.ofList digits.reverse

/-- The zone in hours and minutes. -/
def shownZone (t : Timestamp) : String :=
  (if t.zone < 0 then "-" else "+") ++
    padded 2 (t.zone.natAbs / 60) ++ padded 2 (t.zone.natAbs % 60)

/-- The text of a time. A zone has no name of its own unless it is the universal one. -/
def shown (t : Timestamp) : String :=
  padded 4 t.year ++ "-" ++ padded 2 t.month ++ "-" ++ padded 2 t.day ++ " " ++
    padded 2 t.hour ++ ":" ++ padded 2 t.minute ++ ":" ++ padded 2 t.second ++
    t.shownFraction ++ " " ++ t.shownZone ++ " " ++ if t.zone = 0 then "UTC" else t.shownZone

end Timestamp

end ShaderStyle
