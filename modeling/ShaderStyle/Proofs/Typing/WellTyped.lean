import ShaderStyle.Expr
import ShaderStyle.Proofs.Typing.Sets
import ShaderStyle.Proofs.Typing.WellFormed

/-! The typing rules of style expressions, stated apart from inference. -/
namespace ShaderStyle

/-- A type of a value. Arrays have one of the given sizes. -/
def Ty.Sized (sizes : Nat → Prop) : Ty → Prop
  | .invalid => False
  | .array n => sizes n
  | _ => True

/-- Whether values of the type are vectors in shaders. -/
def Ty.isVector : Ty → Bool
  | .color | .array _ => true
  | _ => false

/-- The operands that an operator accepts, and the type of the call: fixed kinds, two operands of
one type for a comparison, and for arithmetic numbers mixed with vectors of the type of the call. -/
def Op.Accepts (op : Op) (operands : List Ty) (type : Ty) : Prop :=
  op ∈ valid ∧ Node.Arity.admits op.arity operands.length = true ∧
    match op.operandKind? with
    | some k => (∀ t ∈ operands, t.kind? = some k) ∧ type = op.resultType operands.length
    | none =>
      if op.isArithmetic then
        (∀ t ∈ operands, t = .number ∨ t = type) ∧
          (type = .number ∨ type.isVector) ∧
          (type ≠ .number → type ∈ operands)
      else (∀ t ∈ operands, ∀ u ∈ operands, t = u) ∧ type = .boolean

namespace Expr

/-- Expressions that keep the typing rules at every node. Array types have one of the sizes. -/
inductive WellTyped (sizes : Nat → Prop) : Expr → Prop where
  | number (source : Path) (x : Double) : WellTyped sizes (.number source x)
  | bool (source : Path) (b : Bool) : WellTyped sizes (.bool source b)
  | text (source : Path) (s : String) : WellTyped sizes (.text source s)
  | color (source : Path) (c : Rgba) : WellTyped sizes (.color source c)
  | array (source : Path) {xs : List Double} (sized : sizes xs.length) :
      WellTyped sizes (.array source xs)
  | get (source : Path) (name : String) {type : Ty} (sized : type.Sized sizes) :
      WellTyped sizes (.get source name type)
  | var (source : Path) (name : String) {type : Ty} (sized : type.Sized sizes) :
      WellTyped sizes (.var source name type)
  | builtin (source : Path) {name : String} (known : name ∈ Node.builtins) :
      WellTyped sizes (.builtin source name)
  | call (source : Path) {op : Op} {args : List Expr} {type : Ty} (sized : type.Sized sizes)
      (accepts : op.Accepts (args.map Expr.type) type)
      (operands : ∀ e ∈ args, WellTyped sizes e) : WellTyped sizes (.call source op args type)
  | interpolate (source : Path) (exponent : Double) {input : Expr} {stops : List (Expr × Expr)}
      {type : Ty} (sized : type.Sized sizes) (count : 2 ≤ stops.length)
      (mixable : type = .number ∨ type.isVector)
      (input_type : input.type = .number) (stop_type : ∀ s ∈ stops, s.1.type = .number)
      (output_type : ∀ s ∈ stops, s.2.type = type) (input_typed : WellTyped sizes input)
      (stops_typed : ∀ s ∈ stops, WellTyped sizes s.1)
      (outputs_typed : ∀ s ∈ stops, WellTyped sizes s.2) :
      WellTyped sizes (.interpolate source exponent input stops [] type)
  | select (source : Path) {input fallback : Expr} {alternatives : List (Expr × Expr)} {type : Ty}
      {label : Ty} (sized : type.Sized sizes) (count : alternatives ≠ [])
      (label_kind : label = .number ∨ label = .string ∨ label = .boolean)
      (input_type : input.type = label) (label_type : ∀ a ∈ alternatives, a.1.type = label)
      (output_type : ∀ a ∈ alternatives, a.2.type = type) (fallback_type : fallback.type = type)
      (input_typed : WellTyped sizes input) (labels_typed : ∀ a ∈ alternatives, WellTyped sizes a.1)
      (outputs_typed : ∀ a ∈ alternatives, WellTyped sizes a.2)
      (fallback_typed : WellTyped sizes fallback) :
      WellTyped sizes (.select source input alternatives [] fallback type)
  | cases (source : Path) {fallback : Expr} {alternatives : List (Expr × Expr)} {type : Ty}
      (sized : type.Sized sizes) (count : alternatives ≠ [])
      (condition_type : ∀ a ∈ alternatives, a.1.type = .boolean)
      (output_type : ∀ a ∈ alternatives, a.2.type = type) (fallback_type : fallback.type = type)
      (conditions_typed : ∀ a ∈ alternatives, WellTyped sizes a.1)
      (outputs_typed : ∀ a ∈ alternatives, WellTyped sizes a.2)
      (fallback_typed : WellTyped sizes fallback) :
      WellTyped sizes (.cases source alternatives fallback type)
  | widen {x : Expr} {type : Ty} (sized : type.Sized sizes) (number : x.type = .number)
      (vector : type.isVector) (typed : WellTyped sizes x) :
      WellTyped sizes (.widen x type)

/-- The type of a well-typed expression is one of its types. -/
theorem WellTyped.type_sized {sizes : Nat → Prop} {e : Expr} (h : e.WellTyped sizes) :
    e.type.Sized sizes := by
  cases h with
  | number | bool | text | color | builtin => trivial
  | array _ sized | get _ _ sized | var _ _ sized | call _ sized | widen sized => exact sized
  | interpolate _ _ sized | select _ sized | cases _ sized => exact sized

end Expr

end ShaderStyle
