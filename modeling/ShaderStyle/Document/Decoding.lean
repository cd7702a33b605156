import ShaderStyle.Document.Grammar
import ShaderStyle.Document.Resolution
import ShaderStyle.Style
import ShaderStyle.Value.Key

/-! Documents as values, styles and features. Whatever does not fit makes the whole fail. -/
namespace ShaderStyle.Document

/-- The value of a scalar. -/
def scalarValue (text : String) (quoted : Bool) : Value :=
  if quoted then .text text else Scalar.resolve text

def isNull : Document → Bool
  | .scalar text quoted => (scalarValue text quoted).isNull
  | _ => false

/-- Whether all keys are scalars and no two of them have the same text. -/
def keysOk (entries : List (Document × Document)) : Bool :=
  match entries.mapM fun e => match e.1 with
    | .scalar text _ => some text
    | _ => none with
  | some texts => decide texts.Nodup
  | none => false

/-- What a key stands for. -/
def keyValue : Document → Value
  | .scalar text quoted => scalarValue text quoted
  | _ => .null

/-- Whether a mapping is a record: no key stands for anything but a text. -/
def isRecord (entries : List (Document × Document)) : Bool :=
  entries.all fun e => e.1.keyValue.text?.isSome

/-- The key of an entry. In a record it is a text; there null names nothing and its entry does not
count. -/
def key? (record : Bool) : Document → Option Value
  | .scalar text quoted =>
    let v := scalarValue text quoted
    if !record then some v else if v.isNull then none else some (.text text)
  | _ => none

/-- Whether the entries of the value belong to the mapping around it. -/
def isMergeKey : Document → Bool
  | .scalar "<<" false => true
  | _ => false

/-- Entries of a mapping, and the keys that later ones may not set again, if there are any. -/
structure Merging where
  entries : List (Value × Value) := []
  taken : Option (List Value) := none

namespace Merging

/-- Whether an entry with a key still counts. -/
def admits (m : Merging) (key : Value) : Bool :=
  match m.taken with
  | none => true
  | some keys => !keys.any key.sameKey

def add (m : Merging) (key value : Value) : Merging :=
  ⟨Value.insertEntry m.entries key value, m.taken.map (key :: ·)⟩

/-- Goes on with the entries that are merged into a mapping: they set no key of its own. -/
def startMerge (m : Merging) (entries : List (Document × Document)) : Merging :=
  { m with taken := m.taken.or (some (entries.map fun e => e.1.keyValue)) }

/-- The entries by name. -/
def fields (m : Merging) : List (String × Value) :=
  m.entries.filterMap fun e => e.1.text?.map (·, e.2)

end Merging

mutual

def value? : Document → Option Value
  | .scalar text quoted => some (scalarValue text quoted)
  | .sequence items => (values? items).map .list
  | .mapping entries =>
    if !keysOk entries then none
    else if isRecord entries then do
      let m ← own? true {} entries
      let m ← merge? true (m.startMerge entries) entries
      return .record m.fields
    else do
      let m ← own? false {} entries
      let m ← merge? false (m.startMerge entries) entries
      return .table m.entries

def values? : List Document → Option (List Value)
  | [] => some []
  | d :: ds => do return (← d.value?) :: (← values? ds)

/-- Adds the entries that a mapping has itself. What does not count is not looked at. -/
def own? (record : Bool) (m : Merging) : List (Document × Document) → Option Merging
  | [] => some m
  | (key, d) :: rest => do
    if key.isMergeKey then own? record m rest
    else
      match key.key? record with
      | none => own? record m rest
      | some k => if m.admits k then own? record (m.add k (← d.value?)) rest else own? record m rest

/-- Adds the entries of the mapping or mappings that are merged into one. -/
def merge? (record : Bool) (m : Merging) : List (Document × Document) → Option Merging
  | [] => some m
  | (key, .sequence items) :: rest =>
    if key.isMergeKey then mergeAll? record m items else merge? record m rest
  | (key, d) :: rest => if key.isMergeKey then mergeFrom? record m d else merge? record m rest

def mergeFrom? (record : Bool) (m : Merging) : Document → Option Merging
  | .mapping entries =>
    if keysOk entries then do merge? record (← own? record m entries) entries else none
  | _ => none

def mergeAll? (record : Bool) (m : Merging) : List Document → Option Merging
  | [] => some m
  | d :: ds => do mergeAll? record (← mergeFrom? record m d) ds

end

/-- Values by name; null means none. -/
def bindings? (d : Document) : Option (Option Bindings) :=
  match d with
  | .mapping entries => do
    if !keysOk entries then none
    let m ← own? true {} entries
    let m ← merge? true (m.startMerge entries) entries
    return some ⟨m.fields⟩
  | d => if d.isNull then some none else none

/-- The entries that a mapping has itself, by name. -/
def ownNames (entries : List (Document × Document)) : List (String × Document) :=
  entries.filterMap fun (key, d) =>
    if key.isMergeKey then none else (key.key? true).bind fun k => k.text?.map (·, d)

mutual

/-- The entries of a mapping by name, its own before those that are merged into it. -/
def names? : Document → Option (List (String × Document))
  | .mapping entries =>
    if keysOk entries then do return ownNames entries ++ (← mergedNames? entries) else none
  | _ => none

def mergedNames? : List (Document × Document) → Option (List (String × Document))
  | [] => some []
  | (key, .sequence items) :: rest =>
    if key.isMergeKey then allNames? items else mergedNames? rest
  | (key, d) :: rest => if key.isMergeKey then d.names? else mergedNames? rest

def allNames? : List Document → Option (List (String × Document))
  | [] => some []
  | d :: ds => do return (← d.names?) ++ (← allNames? ds)

end

/-- The entries of a mapping by name, and nothing for null. -/
def entries? (d : Document) : Option (Option (List (String × Document))) :=
  if d.isNull then some none else d.names?.map some

/-- Any scalar can be a text; null is the empty one. -/
def text? : Document → Option String
  | .scalar text quoted => some (if (scalarValue text quoted).isNull then "" else text)
  | _ => none

/-- A truth value, also by one of its older names; null is false. -/
def truth? : Document → Option Bool
  | .scalar text quoted =>
    match scalarValue text quoted with
    | .bool b => some b
    | .null => some false
    | .text s =>
      if ["y", "Y", "yes", "Yes", "YES", "on", "On", "ON"].contains s then some true
      else if ["n", "N", "no", "No", "NO", "off", "Off", "OFF"].contains s then some false
      else none
    | _ => none
  | _ => none

/-- The field of a name, decoded, or what stands for a missing one. -/
def field? {α : Type} (decode : Document → Option α) (absent : α) (name : String)
    (fields : List (String × Document)) : Option α :=
  match fields.lookup name with
  | some d => decode d
  | none => some absent

def symbol? (d : Document) : Option (Option Symbol) := do
  let some fields ← d.entries? | return none
  let channel (name : String) := field? value? .null name fields
  return some {
    symbolType := ← field? text? "" "symbolType" fields
    size := ← channel "size"
    color := ← channel "color"
    opacity := ← channel "opacity"
    rotation := ← channel "rotation"
    rotateWithView := ← field? truth? false "rotateWithView" fields
    offset := ← channel "offset"
    textureCoord := ← channel "textureCoord"
    src := ← field? text? "" "src" fields }

def style? (d : Document) : Option Style := do
  let some fields ← d.entries? | return {}
  let channel (name : String) := field? value? .null name fields
  return {
    filter := ← channel "filter"
    symbol := ← field? symbol? none "symbol" fields
    strokeColor := ← channel "stroke-color"
    strokeWidth := ← channel "stroke-width"
    fillColor := ← channel "fill-color"
    vars := ← field? bindings? none "variables" fields }

/-- A list of features, of which null is one without properties. -/
def features? : Document → Option (List Bindings)
  | .sequence items => items.mapM fun d => d.bindings?.map (·.getD .empty)
  | d => if d.isNull then some [] else none

/-- The items of a sequence. -/
def items? : Document → Option (List Value)
  | .sequence items => values? items
  | _ => none

end ShaderStyle.Document

namespace ShaderStyle

/-- Reads a style from the text of a file. -/
def Style.load? (s : String) : Option Style := (Document.parse? s).bind Document.style?

end ShaderStyle
