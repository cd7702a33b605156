import ShaderStyle.Timestamp

/-! Dynamically typed values: what styles, variables and feature properties are made of. -/
namespace ShaderStyle

inductive IntegerType where
  | int | int8 | int16 | int32 | int64
  | uint | uint8 | uint16 | uint32 | uint64
  deriving DecidableEq

/-- The integers whose arrays count as arrays of numbers. Arrays of the others are not converted. -/
def IntegerType.formsArrays : IntegerType → Bool
  | .int | .int64 => true
  | _ => false

inductive Value where
  | null
  | bool (b : Bool)
  | text (s : String)
  | double (x : Double)
  | single (x : Double)
  | integer (type : IntegerType) (n : Int)
  /-- A number kept as the text it was written with. -/
  | numeral (s : String)
  | list (items : List Value)
  | record (fields : List (String × Value))
  | timestamp (t : Timestamp)
  /-- A map with keys other than texts. -/
  | table (entries : List (Value × Value))
  | doubles (xs : List Double)
  | singles (xs : List Double)
  | integers (type : IntegerType) (ns : List Int)
  | texts (ss : List String)
  deriving Inhabited

namespace Value

def isNull : Value → Bool
  | .null => true
  | _ => false

/-- What a value says as a number. -/
def reading : Value → NumberReading
  | .double x | .single x => .value x
  | .integer _ n => .value (.ofInt n)
  | .numeral s => Double.read s
  | _ => .malformed

def number? (v : Value) : Option Double := v.reading.value?

def text? : Value → Option String
  | .text s => some s
  | _ => none

/-- The elements of an array of numbers. -/
def numbers? : Value → Option (List Double)
  | .doubles xs | .singles xs => some xs
  | .integers type ns => if type.formsArrays then some (ns.map Double.ofInt) else none
  | .list items => items.mapM number?
  | _ => none

end Value

end ShaderStyle
