import ShaderStyle.Categories
import ShaderStyle.Glsl.Name
import ShaderStyle.Issue

/-! The feature properties and variables that a style refers to, declared in its shaders. -/
namespace ShaderStyle

/-- A feature property that a shader reads. -/
structure Attribute where
  name : String
  ident : String
  /-- The varying, once the fragment shader reads the property. -/
  varying : Option String := none
  type : Ty
  deriving DecidableEq

/-- A style variable that a shader reads. -/
structure Variable where
  name : String
  ident : String
  type : Ty
  deriving DecidableEq

structure Registry where
  shader : Shader := {}
  attributes : OrderedMap String Attribute := .empty
  vars : OrderedMap String Variable := .empty
  /-- The names that identifiers were made from. -/
  idents : OrderedMap String String := .empty
  categories : Categories := {}

instance : Inhabited Registry := ⟨{}⟩

/-- Steps on a registry, which keeps what was done before a failure. -/
abbrev RegistryM := ExceptT Issue (StateM Registry)

namespace Registry

def fail {α : Type} (path : Path) (cause : Cause) : RegistryM α := throw ⟨path, cause⟩

/-- Reserves an identifier for a name. Two names cannot share one. -/
def claim (path : Path) (ident name : String) : RegistryM Unit := do
  match (← get).idents.get? ident with
  | some previous =>
    if previous ≠ name then fail path (.identClash previous name ident)
  | none => modify fun r => { r with idents := r.idents.insert ident name }

/-- Declares in the shader. -/
def declare (path : Path) (change : Shader → Except Conflict Shader) : RegistryM Unit := do
  match change (← get).shader with
  | .ok shader => modify fun r => { r with shader }
  | .error conflict => fail path (.redeclared conflict)

def addFunction (stage : Stage) (source : String) : RegistryM Unit :=
  modify fun r => { r with shader := r.shader.addFunction stage source }

/-- A name has one type throughout a style. -/
def checkType (path : Path) (what name : String) (previous type : Ty) : RegistryM Unit :=
  if previous = type then pure () else fail path (.conflictingUse what name type previous)

def registerAttribute (path : Path) (name : String) (type : Ty) : RegistryM Attribute := do
  match (← get).attributes.get? name with
  | some known =>
    checkType path "feature property" name known.type type
    return known
  | none =>
    let ident := Glsl.attributeName name
    claim path ident name
    declare path fun s => s.addAttribute ident (Glsl.storageTypeName type)
    let new : Attribute := { name, ident, type }
    modify fun r => { r with attributes := r.attributes.insert name new }
    return new

/-- How the vertex shader reads an attribute: colors are unpacked. -/
def attributeTerm (ident : String) : Ty → Glsl.Term
  | .color => Glsl.unpack (.name ident)
  | _ => .name ident

/-- Registers a property and gives its identifier in a stage. For the fragment stage a varying is
declared. -/
def property (path : Path) (name : String) (type : Ty) (stage : Stage) : RegistryM String := do
  let known ← registerAttribute path name type
  match stage, known.varying with
  | .vertex, _ => return known.ident
  | .fragment, some varying => return varying
  | .fragment, none =>
    let varying := Glsl.varyingName name
    claim path varying name
    if type = .color then addFunction .vertex Glsl.unpackFunction
    declare path fun s =>
      s.addVarying ⟨varying, Glsl.typeName type, (attributeTerm known.ident type).text⟩
    modify fun r => { r with
      attributes := r.attributes.insert name { known with varying := some varying } }
    return varying

/-- Registers a variable and gives the identifier of its uniform. -/
def styleVariable (path : Path) (name : String) (type : Ty) : RegistryM String := do
  match (← get).vars.get? name with
  | some v =>
    checkType path "variable" name v.type type
    return v.ident
  | none =>
    let ident := Glsl.uniformName name
    claim path ident name
    declare path fun s => s.addUniform ident (Glsl.storageTypeName type)
    modify fun r => { r with vars := r.vars.insert name { name, ident, type } }
    return ident

/-- Registers a text and gives its number. -/
def category (s : String) : RegistryM Int := do
  modify fun r => { r with categories := r.categories.register s }
  return (← get).categories.number s

end Registry

end ShaderStyle
