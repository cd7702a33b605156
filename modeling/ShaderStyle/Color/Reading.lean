import ShaderStyle.Color.Basic
import ShaderStyle.Color.Names
import ShaderStyle.Text.Blank
import ShaderStyle.Text.Lowercase
import ShaderStyle.Text.Quoted
import ShaderStyle.Value.Printer

/-! Reading colors: names, hexadecimal digits, `rgb(…)` and `rgba(…)`, and arrays of channels. -/
namespace ShaderStyle

/-- Why a value is no color. The texts are trimmed and in lower case. -/
inductive ColorError where
  | unknown (text : String)
  | hexadecimal (text : String)
  | componentCount (text : String) (want got : Nat)
  | component (text : String) (part : String)
  | arraySize (count : Nat)
  | notColor (value : Value)

namespace ColorError

def message : ColorError → String
  | .unknown s => "invalid color " ++ Text.quote s
  | .hexadecimal s => "invalid hexadecimal color " ++ Text.quote s
  | .componentCount s want got =>
    "invalid color " ++ Text.quote s ++ ": want " ++ toString want ++ " components but got " ++
      toString got
  | .component s part =>
    "invalid color " ++ Text.quote s ++ ": cannot parse component " ++ Text.quote part
  | .arraySize n => "a color array requires 3 or 4 components but got " ++ toString n
  | .notColor v => "cannot use " ++ v.shown ++ " (type " ++ v.typeName ++ ") as a color"

end ColorError

namespace Color

/-- Splits at the separators, which are dropped; an empty word is kept. -/
def words (separator : Char → Bool) : List Char → List (List Char)
  | [] => [[]]
  | c :: cs =>
    match words separator cs with
    | [] => [[c]]
    | w :: ws => if separator c then [] :: w :: ws else (c :: w) :: ws

/-- The non-empty parts between separators. -/
def fields (separator : Char → Bool) (cs : List Char) : List (List Char) :=
  (words separator cs).filter fun w => !w.isEmpty

/-- The color of three, four, six or eight hexadecimal digits. A single digit is doubled. -/
def ofHex? (cs : List Char) : Option Rgba :=
  let alpha (n : Nat) : Double := .div (.ofNat n) (.ofNat 255)
  match cs.mapM (Numeral.digitValue? 16) with
  | some [r, g, b] => some (solid (17 * r) (17 * g) (17 * b))
  | some [r, g, b, a] =>
    some { solid (17 * r) (17 * g) (17 * b) with alpha := alpha (17 * a) }
  | some [r, r', g, g', b, b'] => some (solid (16 * r + r') (16 * g + g') (16 * b + b'))
  | some [r, r', g, g', b, b', a, a'] =>
    some { solid (16 * r + r') (16 * g + g') (16 * b + b') with alpha := alpha (16 * a + a') }
  | _ => none

/-- Reads the components between the parentheses of a functional notation. -/
def components (s : String) (args : List Char) (want : Nat) : Except ColorError (List Double) :=
  let parts := fields (fun c => c == ',' || c == ' ' || c == '/') args
  if parts.length = want then
    parts.mapM fun part =>
      match (Double.read (String.ofList part)).value? with
      | some x => .ok x
      | none => .error (.component s (String.ofList part))
  else .error (.componentCount s want parts.length)

/-- What stands between an opening text and a closing parenthesis. -/
def enclosed? (opening : String) (cs : List Char) : Option (List Char) :=
  if opening.toList.isPrefixOf cs && cs.getLast? == some ')' then
    some (cs.drop opening.length).dropLast
  else none

/-- Rounds and clamps the channels of a functional notation. -/
def ofComponents (s : String) : List Double → Except ColorError Rgba
  | [r, g, b] => .ok ⟨channel8 r, channel8 g, channel8 b, Scalar.ofNat 1⟩
  | [r, g, b, a] => .ok ⟨channel8 r, channel8 g, channel8 b, clamp 0 1 a⟩
  | _ => .error (.unknown s)

/-- The color of four bytes, red first. -/
def ofNamed (n : Nat) : Rgba :=
  ofBytes (n / 0x1000000) (n / 0x10000 % 0x100) (n / 0x100 % 0x100) (n % 0x100)

/-- Reads a text that is trimmed and in lower case. -/
def ofNormalized (s : String) : Except ColorError Rgba :=
  let cs := s.toList
  if s = "transparent" then .ok transparent
  else if cs.head? = some '#' then
    match ofHex? cs.tail with
    | some c => .ok c
    | none => .error (.hexadecimal s)
  else
    match enclosed? "rgba(" cs with
    | some args => components s args 4 >>= ofComponents s
    | none =>
      match enclosed? "rgb(" cs with
      | some args => components s args 3 >>= ofComponents s
      | none =>
        match named.lookup s with
        | some n => .ok (ofNamed n)
        | none => .error (.unknown s)

def ofText (s : String) : Except ColorError Rgba := ofNormalized (Text.lower (Text.trim s))

def isColorText (s : String) : Bool := (ofText s).toBool

/-- Reads a color from a text or from an array of three or four numbers. -/
def ofValue (v : Value) : Except ColorError Rgba :=
  match v with
  | .text s => ofText s
  | v =>
    match v.numbers? with
    | none => .error (.notColor v)
    | some xs =>
      match ofList? xs with
      | some c => .ok c
      | none => .error (.arraySize xs.length)

end Color

end ShaderStyle
