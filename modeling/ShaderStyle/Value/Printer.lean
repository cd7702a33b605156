import ShaderStyle.Double.Layout
import ShaderStyle.Value.Key

/-! How values and the names of their types show in messages. -/
namespace ShaderStyle

def IntegerType.name : IntegerType → String
  | .int => "int"
  | .int8 => "int8"
  | .int16 => "int16"
  | .int32 => "int32"
  | .int64 => "int64"
  | .uint => "uint"
  | .uint8 => "uint8"
  | .uint16 => "uint16"
  | .uint32 => "uint32"
  | .uint64 => "uint64"

namespace Value

def typeName : Value → String
  | .null => "<nil>"
  | .bool _ => "bool"
  | .text _ => "string"
  | .double _ => "float64"
  | .single _ => "float32"
  | .integer type _ => type.name
  | .numeral _ => "json.Number"
  | .list _ => "[]interface \x7b\x7d"
  | .record _ => "map[string]interface \x7b\x7d"
  | .timestamp _ => "time.Time"
  | .table _ => "map[interface \x7b\x7d]interface \x7b\x7d"
  | .doubles _ => "[]float64"
  | .singles _ => "[]float32"
  | .integers type _ => "[]" ++ type.name
  | .texts _ => "[]string"

def bracketed (items : List String) : String := "[" ++ " ".intercalate items ++ "]"

mutual

/-- The text of a value; the entries of records and tables are sorted by key. -/
def shown : Value → String
  | .null => "<nil>"
  | .bool b => if b then "true" else "false"
  | .text s | .numeral s => s
  | .double x => x.general
  | .single x => x.generalSingle
  | .integer _ n => toString n
  | .list items => bracketed (shownList items)
  | .record fields =>
    let sorted := (shownFields fields).mergeSort fun a b => a.1 ≤ b.1
    "map" ++ bracketed (sorted.map fun e => e.1 ++ ":" ++ e.2)
  | .timestamp t => t.shown
  | .table entries =>
    let sorted := (shownEntries entries).mergeSort fun a b => a.1.keyLe b.1
    "map" ++ bracketed (sorted.map Prod.snd)
  | .doubles xs => bracketed (xs.map Double.general)
  | .singles xs => bracketed (xs.map Double.generalSingle)
  | .integers _ ns => bracketed (ns.map toString)
  | .texts ss => bracketed ss

def shownList : List Value → List String
  | [] => []
  | v :: vs => v.shown :: shownList vs

def shownFields : List (String × Value) → List (String × String)
  | [] => []
  | (k, v) :: rest => (k, v.shown) :: shownFields rest

def shownEntries : List (Value × Value) → List (Value × String)
  | [] => []
  | (k, v) :: rest => (k, k.shown ++ ":" ++ v.shown) :: shownEntries rest

end

end Value

end ShaderStyle
