import ShaderStyle.OrderedMap

/-! What a pair of shaders is assembled from: declarations, helper functions and slot expressions. -/
namespace ShaderStyle

/-- Where an expression is evaluated. -/
inductive Stage where
  /-- Feature properties are read from attributes. -/
  | vertex
  /-- Feature properties are read from varyings. -/
  | fragment
  deriving DecidableEq

def Stage.name : Stage → String
  | .vertex => "vertex"
  | .fragment => "fragment"

/-- A value that the vertex shader computes for the fragment shader. -/
structure Varying where
  name : String
  type : String
  expression : String
  deriving DecidableEq

/-- The places of the shaders that expressions of a style fill. -/
inductive Slot where
  | symbolSize | symbolSizeFragment | symbolRotation | symbolOffset | symbolColor | texCoord
  | discard | strokeColor | strokeWidth | strokeWidthFragment | fillColor
  deriving DecidableEq

namespace Slot

def all : List Slot := [
  .symbolSize, .symbolSizeFragment, .symbolRotation, .symbolOffset, .symbolColor, .texCoord,
  .discard, .strokeColor, .strokeWidth, .strokeWidthFragment, .fillColor]

def name : Slot → String
  | .symbolSize => "symbolSize"
  | .symbolSizeFragment => "symbolSizeFragment"
  | .symbolRotation => "symbolRotation"
  | .symbolOffset => "symbolOffset"
  | .symbolColor => "symbolColor"
  | .texCoord => "texCoord"
  | .discard => "discard"
  | .strokeColor => "strokeColor"
  | .strokeWidth => "strokeWidth"
  | .strokeWidthFragment => "strokeWidthFragment"
  | .fillColor => "fillColor"

def ofName? (s : String) : Option Slot := all.find? fun slot => slot.name == s

/-- The expression of a slot that no style fills. -/
def initial : Slot → String
  | .symbolSize | .symbolSizeFragment => "vec2(1.0)"
  | .symbolRotation => "0.0"
  | .symbolOffset => "vec2(0.0)"
  | .symbolColor | .strokeColor | .fillColor => "vec4(1.0)"
  | .texCoord => "vec4(0.0, 0.0, 1.0, 1.0)"
  | .discard => "false"
  | .strokeWidth | .strokeWidthFragment => "1.0"

end Slot

/-- A declaration at odds with an earlier one of the same name. -/
inductive Conflict where
  | retyped (family name previous type : String)
  | varying (previous new : Varying)
  deriving DecidableEq

def Conflict.message : Conflict → String
  | .retyped family name previous type =>
    family ++ " " ++ name ++ " already declared with type " ++ previous ++
      ": cannot redeclare it with type " ++ type
  | .varying previous new =>
    let body (v : Varying) := v.type ++ " " ++ v.name ++ " = " ++ v.expression
    "varying " ++ new.name ++ " already declared as " ++ body previous ++
      ": cannot redeclare it as " ++ body new

/-- Declarations are unique by name and keep the order of their first appearance. -/
structure Shader where
  uniforms : OrderedMap String String := .empty
  attributes : OrderedMap String String := .empty
  varyings : OrderedMap String Varying := .empty
  vertexFunctions : List String := []
  fragmentFunctions : List String := []
  slots : Slot → String := Slot.initial
  rotateWithView : Bool := false

namespace Shader

instance : Inhabited Shader := ⟨{}⟩

/-- Declares a name with a type; the same declaration again changes nothing. -/
def declare (family : String) (decls : OrderedMap String String) (name type : String) :
    Except Conflict (OrderedMap String String) :=
  match decls.get? name with
  | none => .ok (decls.insert name type)
  | some previous =>
    if previous = type then .ok decls else .error (.retyped family name previous type)

def addUniform (s : Shader) (name type : String) : Except Conflict Shader :=
  (declare "uniform" s.uniforms name type).map fun uniforms => { s with uniforms }

def addAttribute (s : Shader) (name type : String) : Except Conflict Shader :=
  (declare "attribute" s.attributes name type).map fun attributes => { s with attributes }

def addVarying (s : Shader) (v : Varying) : Except Conflict Shader :=
  match s.varyings.get? v.name with
  | none => .ok { s with varyings := s.varyings.insert v.name v }
  | some previous => if previous = v then .ok s else .error (.varying previous v)

/-- Adds a function unless the same text is there. -/
def addSource (sources : List String) (source : String) : List String :=
  if source ∈ sources then sources else sources ++ [source]

def addFunction (s : Shader) (stage : Stage) (source : String) : Shader :=
  match stage with
  | .vertex => { s with vertexFunctions := addSource s.vertexFunctions source }
  | .fragment => { s with fragmentFunctions := addSource s.fragmentFunctions source }

def setSlot (s : Shader) (slot : Slot) (expression : String) : Shader :=
  { s with slots := fun other => if other = slot then expression else s.slots other }

/-- A declaration or a helper function for a shader. -/
inductive Call where
  | addUniform (name type : String)
  | addAttribute (name type : String)
  | addVarying (v : Varying)
  | addFunction (stage : Stage) (source : String)
  deriving DecidableEq

/-- The shader after a declaration: a refused one leaves it as it is. -/
def settle (s : Shader) : Except Conflict Shader → Option Conflict × Shader
  | .ok next => (none, next)
  | .error conflict => (some conflict, s)

/-- Takes a call, and tells the conflict for which it is refused. -/
def serve (s : Shader) : Call → Option Conflict × Shader
  | .addUniform name type => s.settle (s.addUniform name type)
  | .addAttribute name type => s.settle (s.addAttribute name type)
  | .addVarying v => s.settle (s.addVarying v)
  | .addFunction stage source => (none, s.addFunction stage source)

/-- Declarations as they stand in a shader, such as `float u_var_width`. -/
def declarations (decls : OrderedMap String String) : List String :=
  decls.entries.map fun e => e.2 ++ " " ++ e.1

end Shader

end ShaderStyle
