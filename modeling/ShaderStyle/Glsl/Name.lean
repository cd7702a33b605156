import ShaderStyle.Kind

/-! Names of types and identifiers in shaders. -/
namespace ShaderStyle.Glsl

/-- Whether a character may stand in an identifier. -/
def isIdentChar (c : Char) : Bool :=
  ('a' ≤ c && c ≤ 'z') || ('A' ≤ c && c ≤ 'Z') || ('0' ≤ c && c ≤ '9') || c == '_'

def mangleChar (c : Char) : List Char :=
  if isIdentChar c then [c]
  else '_' :: 'x' :: (Nat.toDigits 16 c.toNat).map Char.toUpper

/-- The tail of an identifier for any name: characters that cannot stand there are replaced by
their hexadecimal code. Different names may get the same tail. -/
def mangle (name : String) : String := String.ofList (name.toList.flatMap mangleChar)

def attributeName (name : String) : String := "a_" ++ mangle name

def uniformName (name : String) : String := "u_var_" ++ mangle name

def varyingName (name : String) : String := "v_" ++ mangle name

/-- The type of a value inside an expression. -/
def typeName : Ty → String
  | .color => "vec4"
  | .array size => "vec" ++ toString size
  | _ => "float"

/-- The type of a value in an attribute or a uniform, where colors are packed. -/
def storageTypeName : Ty → String
  | .color => "vec2"
  | t => typeName t

/-- How many numbers store a value in an attribute or a uniform. -/
def storageSize : Ty → Nat
  | .color => 2
  | .array size => size
  | _ => 1

end ShaderStyle.Glsl
