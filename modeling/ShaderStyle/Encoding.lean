import ShaderStyle.Categories
import ShaderStyle.Color.Reading
import ShaderStyle.Glsl.Name

/-! Values as the numbers that attributes and uniforms hold. -/
namespace ShaderStyle

/-- Whether a value counts as true. -/
def Value.truthy : Value → Bool
  | .bool b => b
  | .text s => s ≠ ""
  | .null => false
  | v =>
    match v.number? with
    | some x => !x.isZero
    | none => true

/-- The first `n` numbers, filled up with zeros. -/
def padded (n : Nat) (xs : List Double) : List Double :=
  xs.take n ++ List.replicate (n - xs.length) (.finite 0)

/-- Encodes a value of a type, or a missing one. There is a number list for every value: what does
not fit the type counts as zeros, and as an unknown category where a text is due. -/
def encode (type : Ty) (categories : Categories) (value : Option Value) : List Double :=
  let v := value.getD .null
  match type with
  | .number => [v.reading.fallback]
  | .boolean => [if v.truthy then .finite 1 else .finite 0]
  | .string =>
    match v with
    | .text s => [.ofInt (categories.number s)]
    | _ => [.ofInt (-1)]
  | .color =>
    match Color.ofValue v with
    | .ok c => c.pack.toList
    | .error _ => [.finite 0, .finite 0]
  | .array n => padded n (v.numbers?.getD [])
  | .invalid => List.replicate (Glsl.storageSize .invalid) (.finite 0)

end ShaderStyle
