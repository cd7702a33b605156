import ShaderStyle.Color.Basic
import ShaderStyle.Double.Layout

/-! Expressions of the shading language, with their parentheses, and their text. -/
namespace ShaderStyle.Glsl

inductive BinaryOp where
  | mul | add | sub | div
  | greater | greaterEq | less | lessEq | equal | notEqual
  | and | or
  deriving DecidableEq

def BinaryOp.symbol : BinaryOp → String
  | .mul => "*"
  | .add => "+"
  | .sub => "-"
  | .div => "/"
  | .greater => ">"
  | .greaterEq => ">="
  | .less => "<"
  | .lessEq => "<="
  | .equal => "=="
  | .notEqual => "!="
  | .and => "&&"
  | .or => "||"

inductive Term where
  | number (x : Double)
  | bool (b : Bool)
  | name (ident : String)
  | call (function : String) (args : List Term)
  /-- Operands joined by one operator, without parentheses. -/
  | chain (op : BinaryOp) (operands : List Term)
  | not (x : Term)
  /-- A conditional, without parentheses. -/
  | choose (condition yes no : Term)
  | paren (x : Term)
  deriving Inhabited

/-- A number literal always has a fractional part and no exponent. -/
def numberText (x : Double) : String :=
  let s := x.positional
  if s.toList.contains '.' then s else s ++ ".0"

namespace Term

mutual

def text : Term → String
  | .number x => numberText x
  | .bool b => if b then "true" else "false"
  | .name ident => ident
  | .call f args => f ++ "(" ++ ", ".intercalate (texts args) ++ ")"
  | .chain op operands => (" " ++ op.symbol ++ " ").intercalate (texts operands)
  | .not x => "!" ++ x.text
  | .choose c yes no => c.text ++ " ? " ++ yes.text ++ " : " ++ no.text
  | .paren x => "(" ++ x.text ++ ")"

def texts : List Term → List String
  | [] => []
  | t :: ts => t.text :: texts ts

end

/-- The constructor of a vector. -/
def vector (components : List Term) : Term :=
  .call ("vec" ++ toString components.length) components

end Term

/-- A number that no literal can express. -/
structure NonFinite where
  value : Double
  deriving DecidableEq

def NonFinite.message (e : NonFinite) : String :=
  "cannot represent " ++ e.value.general ++ " in GLSL"

def number (x : Double) : Except NonFinite Term :=
  if x.isFinite then .ok (.number x) else .error ⟨x⟩

/-- The literal of an array; the first component that is not finite is reported. -/
def array (xs : List Double) : Except NonFinite Term := Term.vector <$> xs.mapM number

/-- The literal of a color, premultiplied. -/
def color (c : Rgba) : Except NonFinite Term := array c.premultiplied

def unpackFunctionName : String := "unpackColor"

/-- The helper that unpacks a color into premultiplied channels. -/
def unpackFunction : String :=
  "vec4 unpackColor(vec2 packedColor) \x7b\n" ++
  "  return vec4(\n" ++
  "    floor(packedColor[0] / 256.0) / 255.0,\n" ++
  "    mod(packedColor[0], 256.0) / 255.0,\n" ++
  "    floor(packedColor[1] / 256.0) / 255.0,\n" ++
  "    1.0\n" ++
  "  ) * (mod(packedColor[1], 256.0) / 255.0);\n" ++
  "\x7d"

def unpack (x : Term) : Term := .call unpackFunctionName [x]

end ShaderStyle.Glsl
