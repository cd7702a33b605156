import ShaderStyle.Compile
import ShaderStyle.JsonTree
import ShaderStyle.Value.Printer

/-! Reports on a compiled style, as lines for a reader and as a tree for other programs. -/
namespace ShaderStyle

/-- A compiled style with the attribute values of some features. -/
structure Report where
  result : Result
  features : List (List (List Double)) := []

namespace Report

def ofResult (r : Result) (features : List Bindings) : Report := ⟨r, features.map r.extract⟩

def truth (b : Bool) : String := if b then "true" else "false"

def numbers (xs : List Double) : String := Value.bracketed (xs.map Double.general)

/-- A heading and the lines under it, or nothing if there are none. -/
def headed (heading : String) (lines : List String) : List String :=
  if lines.isEmpty then [] else heading :: lines.map ("  " ++ ·)

def slotLines (s : Shader) : List String :=
  Slot.all.map (fun slot => slot.name ++ ": " ++ s.slots slot) ++
    ["rotateWithView: " ++ truth s.rotateWithView]

def featureLines (r : Result) (index : Nat) (values : List (List Double)) : List String :=
  ("feature " ++ toString index ++ ":") ::
    (r.attributes.zip values).map fun (a, xs) => "  " ++ a.name ++ ": " ++ numbers xs

def lines (p : Report) : List String :=
  let r := p.result
  ["symbol: " ++ truth r.hasSymbol ++ " stroke: " ++ truth r.hasStroke ++ " fill: " ++
      truth r.hasFill] ++
    headed "uniforms:" (Shader.declarations r.shader.uniforms) ++
    headed "attributes:" (Shader.declarations r.shader.attributes) ++
    headed "varyings:" (r.shader.varyings.values.map fun v =>
      v.type ++ " " ++ v.name ++ " = " ++ v.expression) ++
    headed "slots:" (slotLines r.shader) ++
    headed "values:" (r.uniforms.map fun u =>
      u.ident ++ " (" ++ u.name ++ "): " ++ numbers (r.uniformValue u)) ++
    p.features.zipIdx.flatMap fun (values, index) => featureLines r index values

def text (p : Report) : String := String.join (p.lines.map (· ++ "\n"))

def texts (ss : List String) : JsonTree := .array (ss.map .text)

/-- Texts, or null where there are none. -/
def textsOrNull (ss : List String) : JsonTree := if ss.isEmpty then .null else texts ss

def vector (xs : List Double) : JsonTree := .array (xs.map .number)

def count (n : Nat) : JsonTree := .number (.ofNat n)

def sorted (fields : List (String × JsonTree)) : JsonTree :=
  .object (fields.mergeSort fun a b => a.1 ≤ b.1)

def varyingTree (v : Varying) : JsonTree :=
  .object [("name", .text v.name), ("type", .text v.type), ("expression", .text v.expression)]

def tree (p : Report) : JsonTree :=
  let r := p.result
  let s := r.shader
  .object <| [
    ("uniforms", texts (Shader.declarations s.uniforms)),
    ("attributes", texts (Shader.declarations s.attributes)),
    ("varyings", .array (s.varyings.values.map varyingTree)),
    ("vertexFunctions", textsOrNull s.vertexFunctions),
    ("fragmentFunctions", textsOrNull s.fragmentFunctions),
    ("slots", .array (Slot.all.map fun slot =>
      .object [("name", .text slot.name), ("glsl", .text (s.slots slot))])),
    ("rotateWithView", .bool s.rotateWithView),
    ("attributeTable", .array (r.attributes.map fun a =>
      .object [("name", .text a.name), ("size", count (Glsl.storageSize a.type))])),
    ("uniformTable", .array (r.uniforms.map fun u =>
      .object [("name", .text u.ident), ("variable", .text u.name),
        ("value", vector (r.uniformValue u))])),
    ("textures", sorted (r.textures.map fun t => (t.1, .text t.2))),
    ("categories", sorted (r.categories.entries.map fun c => (c.1, count c.2))),
    ("hasSymbol", .bool r.hasSymbol),
    ("hasStroke", .bool r.hasStroke),
    ("hasFill", .bool r.hasFill)] ++
    if p.features.isEmpty then []
    else [("features", .array (p.features.map fun values => .array (values.map vector)))]

/-- The indented text of the tree, or the first number that cannot be written. -/
def json (p : Report) : Except Double String := p.tree.pretty.map (· ++ "\n")

end Report

end ShaderStyle
