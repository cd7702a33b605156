import ShaderStyle.Builder
import ShaderStyle.Emission
import ShaderStyle.Encoding
import ShaderStyle.LogLevel
import ShaderStyle.Style

/-! Compiling a style: every channel is built and emitted, and all errors are reported together. -/
namespace ShaderStyle

structure LogEntry where
  level : LogLevel
  message : String
  fields : List (String × String)

def LogEntry.text (e : LogEntry) : String :=
  " ".intercalate (e.level.name :: e.message :: e.fields.map fun f => f.1 ++ "=" ++ f.2)

/-- A compilation under way. -/
structure Compilation where
  builder : Builder
  registry : Registry := {}
  log : List LogEntry := []

abbrev CompileM := StateM Compilation

namespace Compilation

def issue (i : Issue) : CompileM Unit :=
  modify fun c => { c with builder := { c.builder with issues := c.builder.issues ++ [i] } }

def debug (message : String) (fields : List (String × String)) : CompileM Unit :=
  modify fun c => { c with log := c.log ++ [⟨.debug, message, fields⟩] }

def changeShader (f : Shader → Shader) : CompileM Unit :=
  modify fun c => { c with registry := { c.registry with shader := f c.registry.shader } }

def setSlot (slot : Slot) (expression : String) : CompileM Unit :=
  changeShader fun s => s.setSlot slot expression

/-- The code of a built expression. -/
def emitChannel (path : Path) (e : Expr) (stage : Stage) : CompileM (Option String) := do
  let (outcome, registry) := (emit stage e).run.run (← get).registry
  modify fun c => { c with registry }
  match outcome with
  | .ok t =>
    debug "channel compiled" [("path", path.shown), ("stage", stage.name), ("type", e.type.name),
      ("glsl", t.text)]
    return some t.text
  | .error i =>
    issue i
    return none

def buildAndEmit (path : Path) (build : Builder → Option Expr × Builder) (stage : Stage) :
    CompileM (Option String) := do
  let (e, builder) := build (← get).builder
  modify fun c => { c with builder }
  match e with
  | some e => emitChannel path e stage
  | none => return none

/-- The code of a channel that accepts the kinds of `expected`. -/
def channel (path : Path) (raw : Value) (expected : TypeSet) (stage : Stage) :
    CompileM (Option String) :=
  buildAndEmit path (fun b => b.build path raw expected) stage

/-- The code of a channel of a given type. -/
def typedChannel (path : Path) (raw : Value) (want : Ty) (stage : Stage) :
    CompileM (Option String) :=
  buildAndEmit path (fun b => b.buildType path raw want) stage

def orDefault (raw default : Value) : Value := if raw.isNull then default else raw

def decimal (n : Nat) : Value := .double (.ofNat n)

/-- The sampler of the image of a symbol. -/
def textureUniform : String := "u_texture"

/-- The opacity of a fragment inside of a shape; `size` is the visible size in pixels. -/
def shapeFilter (size : String) : Shape → String
  | .square | .image => "1.0"
  | .circle =>
    "(1.0-smoothstep(1.-4./" ++ size ++ ",1.,dot(v_quadCoord-.5,v_quadCoord-.5)*4.))"
  | .triangle =>
    let st := "(v_quadCoord*2.-1.)"
    let a := "(atan(" ++ st ++ ".x," ++ st ++ ".y))"
    "(1.0-smoothstep(.5-3./" ++ size ++ ",.5,cos(floor(.5+" ++ a ++
      "/2.094395102)*2.094395102-" ++ a ++ ")*length(" ++ st ++ ")))"

/-- A color whose alpha is scaled by the opacity and by the shape. -/
def symbolColorText (color opacity filter : String) : String :=
  "vec4(" ++ color ++ ".rgb, " ++ color ++ ".a * " ++ opacity ++ " * " ++ filter ++ ")"

def vec2Text (x : String) : String := "vec2(" ++ x ++ ")"

def filter (raw : Value) : CompileM Unit := do
  if let some s ← channel ⟨"filter"⟩ raw .booleans .fragment then setSlot .discard ("!" ++ s)

/-- The parts of a symbol that the fragment shader shares with the vertex shader. -/
def symbolFragment (s : Symbol) (size : Value) (color opacity : String) : CompileM Unit := do
  let path : Path := ⟨"symbol"⟩
  let some size ← channel (path.key "size") size (.ofList [.number, .array]) .fragment | return
  let visible := vec2Text size
  setSlot .symbolSizeFragment visible
  match Shape.ofName? s.symbolType with
  | none =>
    issue ⟨path.key "symbolType",
      if s.symbolType = "" then .missingSymbolType else .unknownSymbolType s.symbolType⟩
  | some shape =>
    let code := symbolColorText color opacity (shapeFilter (visible ++ ".x") shape)
    match s.texture? with
    | none => setSlot .symbolColor code
    | some _ =>
      match (← get).registry.shader.addUniform textureUniform "sampler2D" with
      | .error conflict => issue ⟨path.key "src", .redeclared conflict⟩
      | .ok shader =>
        changeShader fun _ => shader
        setSlot .symbolColor (code ++ " * texture2D(" ++ textureUniform ++ ", v_texCoord)")

def symbol (s : Symbol) : CompileM Unit := do
  let path : Path := ⟨"symbol"⟩
  let zeros := Value.list [decimal 0, decimal 0]
  let whole := Value.list [decimal 0, decimal 0, decimal 1, decimal 1]
  let sizeValue := orDefault s.size (decimal 1)
  let size ← channel (path.key "size") sizeValue (.ofList [.number, .array]) .vertex
  if let some code := size then setSlot .symbolSize (vec2Text code)
  if let some code ← typedChannel (path.key "offset") (orDefault s.offset zeros) (.array 2) .vertex
    then setSlot .symbolOffset code
  if let some code ←
      typedChannel (path.key "textureCoord") (orDefault s.textureCoord whole) (.array 4) .vertex
    then setSlot .texCoord code
  if let some code ←
      channel (path.key "rotation") (orDefault s.rotation (decimal 0)) .numbers .vertex
    then setSlot .symbolRotation code
  changeShader fun shader => { shader with rotateWithView := s.rotateWithView }
  let color ← channel (path.key "color") (orDefault s.color (.text "white")) (.singleton .color)
    .fragment
  let opacity ← channel (path.key "opacity") (orDefault s.opacity (decimal 1)) .numbers .fragment
  match size, color, opacity with
  | some _, some color, some opacity => symbolFragment s sizeValue color opacity
  | _, _, _ => return

def strokeWidth (raw : Value) : CompileM Unit := do
  let path : Path := ⟨"stroke-width"⟩
  let some code ← channel path raw .numbers .vertex | return
  setSlot .strokeWidth code
  if let some code ← channel path raw .numbers .fragment then setSlot .strokeWidthFragment code

def stroke (color width : Value) : CompileM Unit := do
  if !color.isNull then
    if let some code ← channel ⟨"stroke-color"⟩ color (.singleton .color) .fragment then
      setSlot .strokeColor code
  if !width.isNull then strokeWidth width

def fill (color : Value) : CompileM Unit := do
  if let some code ← channel ⟨"fill-color"⟩ color (.singleton .color) .fragment then
    setSlot .fillColor code

/-- The channels of a style, in order. -/
def channels (s : Style) : CompileM Unit := do
  if !s.filter.isNull then filter s.filter
  if let some sym := s.symbol then symbol sym
  if s.hasStroke then stroke s.strokeColor s.strokeWidth
  if s.hasFill then fill s.fillColor

end Compilation

/-- A compiled style: the shaders with the tables that feed them. -/
structure Result where
  shader : Shader
  /-- In the order of their declarations. -/
  attributes : List Attribute
  /-- In the order of their declarations. -/
  uniforms : List Variable
  /-- Samplers with the sources of their images. -/
  textures : List (String × String)
  /-- The current values of the style variables. -/
  vars : Bindings
  categories : Categories
  hasSymbol : Bool
  hasStroke : Bool
  hasFill : Bool

namespace Result

def attribute? (r : Result) (name : String) : Option Attribute :=
  r.attributes.find? fun a => a.name == name

/-- Finds a uniform by its name in the shaders. -/
def uniform? (r : Result) (ident : String) : Option Variable :=
  r.uniforms.find? fun u => u.ident == ident

/-- The numbers that stand for a property of a feature. -/
def attributeValue (r : Result) (feature : Bindings) (a : Attribute) : List Double :=
  encode a.type r.categories (feature.get? a.name)

/-- The numbers of all attributes for a feature. -/
def extract (r : Result) (feature : Bindings) : List (List Double) :=
  r.attributes.map (r.attributeValue feature)

/-- The current value of a uniform. -/
def uniformValue (r : Result) (u : Variable) : List Double :=
  encode u.type r.categories (r.vars.get? u.name)

def setVariable (r : Result) (name : String) (v : Value) : Result :=
  { r with vars := r.vars.insert name v }

end Result

/-- Registers the texts of the variables that are used as categories. -/
def registerTexts (vars : Bindings) (uses : List Variable) (c : Categories) : Categories :=
  uses.foldl (fun c u =>
    match u.type, vars.get? u.name with
    | .string, some (.text s) => c.register s
    | _, _ => c) c

def Compilation.result (s : Style) : CompileM Result := do
  let c ← get
  let uniforms := c.registry.vars.values
  let attributes := c.registry.attributes.values
  let vars := c.builder.vars
  let categories := (registerTexts vars uniforms c.registry.categories).freeze
  for a in attributes do
    debug "attribute registered" [("name", a.name), ("ident", a.ident), ("type", a.type.name)]
  for u in uniforms do
    debug "uniform registered" [("name", u.name), ("ident", u.ident), ("type", u.type.name)]
  debug "style compiled" [("attributes", toString attributes.length),
    ("uniforms", toString uniforms.length), ("categories", toString categories.size)]
  return {
    shader := c.registry.shader
    attributes, uniforms, vars, categories
    textures := match s.symbol.bind Symbol.texture? with
      | some src => [(textureUniform, src)]
      | none => []
    hasSymbol := s.hasSymbol
    hasStroke := s.hasStroke
    hasFill := s.hasFill }

def Compilation.run (s : Style) : CompileM (Checked Result) := do
  channels s
  match (← get).builder.issues with
  | [] => return .ok (← result s)
  | issues => return .error issues

/-- Compiles a style with a store of variables in place of its own, if one is given. -/
def compile (s : Style) (store : Option Bindings) : Checked Result × List LogEntry :=
  let vars := store.getD (s.vars.getD .empty)
  let (outcome, c) := (Compilation.run s).run { builder := { vars } }
  (outcome, c.log)

end ShaderStyle
