import ShaderStyle.Double.Layout
import ShaderStyle.Text.Quoted

/-! Trees of output values and their indented text. -/
namespace ShaderStyle

inductive JsonTree where
  | null
  | bool (b : Bool)
  | number (x : Double)
  | text (s : String)
  | array (items : List JsonTree)
  /-- Fields in the order in which they are written. -/
  | object (fields : List (String × JsonTree))

namespace JsonTree

/-- Positional from the sixth place after the point up to 21 places before it. -/
def numberLayout (d : Decimal) : String :=
  if d.leading < -6 || 21 ≤ d.leading then d.scientific 1 else d.positional

/-- The text of a number; infinities and NaN have none. -/
def numberText? (x : Double) : Except Double String :=
  match x with
  | .nan | .infinity _ => .error x
  | x => .ok (x.textIn .binary64 numberLayout)

def escapeChar (c : Char) : String :=
  match c with
  | '"' => "\\\""
  | '\\' => "\\\\"
  | '\n' => "\\n"
  | '\r' => "\\r"
  | '\t' => "\\t"
  | c =>
    let n := c.toNat
    if n = 0x08 then "\\b"
    else if n = 0x0C then "\\f"
    else if n < 0x20 || ['<', '>', '&'].contains c || n = 0x2028 || n = 0x2029 then
      "\\u" ++ Text.hexDigits 4 n
    else c.toString

/-- A text in quotes. The marks of markup languages are escaped too. -/
def quoteText (s : String) : String :=
  "\"" ++ String.join (s.toList.map escapeChar) ++ "\""

def indentation (depth : Nat) : String := "\n" ++ String.join (List.replicate depth "  ")

/-- Parts between brackets, each on a line of its own. -/
def enclosed (opening closing : String) (depth : Nat) (parts : List String) : String :=
  if parts.isEmpty then opening ++ closing
  else
    opening ++ ",".intercalate (parts.map (indentation (depth + 1) ++ ·)) ++ indentation depth ++
      closing

mutual

/-- The text of a tree at a depth, or the first number in it that has none. -/
def prettyAt (depth : Nat) : JsonTree → Except Double String
  | .null => .ok "null"
  | .bool b => .ok (if b then "true" else "false")
  | .number x => numberText? x
  | .text s => .ok (quoteText s)
  | .array items => (prettyItems (depth + 1) items).map (enclosed "[" "]" depth)
  | .object fields => (prettyFields (depth + 1) fields).map (enclosed "\x7b" "\x7d" depth)

def prettyItems (depth : Nat) : List JsonTree → Except Double (List String)
  | [] => .ok []
  | t :: ts => do return (← prettyAt depth t) :: (← prettyItems depth ts)

def prettyFields (depth : Nat) : List (String × JsonTree) → Except Double (List String)
  | [] => .ok []
  | (name, t) :: rest => do
    let s ← prettyAt depth t
    return (quoteText name ++ ": " ++ s) :: (← prettyFields depth rest)

end

def pretty (t : JsonTree) : Except Double String := t.prettyAt 0

end JsonTree

end ShaderStyle
