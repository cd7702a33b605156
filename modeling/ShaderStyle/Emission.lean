import ShaderStyle.Expr
import ShaderStyle.Registry

/-! Shader code for typed expressions. What an expression refers to is registered on the way, in
the order in which it is visited. -/
namespace ShaderStyle

namespace Glsl

def zeroTerm : Term := .number (.finite 0)

def oneTerm : Term := .number (.finite 1)

/-- A parenthesised chain of operands. -/
def group (op : BinaryOp) (operands : List Term) : Term := .paren (.chain op operands)

/-- The code of an operator applied to the code of its operands. -/
def callTerm (op : Op) (args : List Term) : Except Cause Term :=
  match op, args with
  | .invalid, _ => .error (.unsupportedOperator op)
  | .mul, _ => .ok (group .mul args)
  | .add, _ => .ok (group .add args)
  | .sub, x :: y :: _ => .ok (group .sub [x, y])
  | .div, x :: y :: _ => .ok (group .div [x, y])
  | .greater, x :: y :: _ => .ok (group .greater [x, y])
  | .greaterEq, x :: y :: _ => .ok (group .greaterEq [x, y])
  | .less, x :: y :: _ => .ok (group .less [x, y])
  | .lessEq, x :: y :: _ => .ok (group .lessEq [x, y])
  | .equal, x :: y :: _ => .ok (group .equal [x, y])
  | .notEqual, x :: y :: _ => .ok (group .notEqual [x, y])
  | .mod, x :: y :: _ => .ok (.call "mod" [x, y])
  | .pow, x :: y :: _ => .ok (.call "pow" [x, y])
  | .clamp, _ | .abs, _ | .floor, _ | .ceil, _ => .ok (.call op.name args)
  | .sin, _ | .cos, _ | .sqrt, _ | .atan, _ => .ok (.call op.name args)
  | .round, x :: _ => .ok (.call "floor" [.chain .add [x, .number (.finite (1 / 2))]])
  | .not, x :: _ => .ok (.paren (.not x))
  | .all, _ => .ok (group .and args)
  | .any, _ => .ok (group .or args)
  | .between, x :: low :: high :: _ =>
    .ok (group .and [.chain .greaterEq [x, low], .chain .lessEq [x, high]])
  | .array, _ => .ok (.vector args)
  | .color, r :: g :: b :: rest =>
    let rgb := Term.call "vec4"
      [.chain .div [.call "vec3" [r, g, b], .number (.finite 255)], oneTerm]
    match rest with
    | alpha :: _ => .ok (group .mul [rgb, alpha])
    | [] => .ok rgb
  | _, _ => .error (.missingOperands op)

/-- One step of an interpolation: from what is below a stop to the output at the next one. -/
def mixTerm (input exponent below start stop output : Term) : Term :=
  let position := Term.chain .div [group .sub [input, start], group .sub [stop, start]]
  .call "mix" [below, output, .call "pow" [.call "clamp" [position, zeroTerm, oneTerm], exponent]]

/-- Chains the steps of an interpolation over the stops after `start`. -/
def mixChain (input exponent : Term) : (below start : Term) → List (Term × Term) → Term
  | below, _, [] => below
  | below, start, (stop, output) :: rest =>
    mixChain input exponent (mixTerm input exponent below start stop output) stop rest

/-- The value of an attribute or a uniform; a boolean is stored as a number. -/
def readTerm (ident : String) : Ty → Term
  | .boolean => group .greater [.name ident, zeroTerm]
  | _ => .name ident

/-- The uniforms of the numbers that the renderer provides. -/
def builtinUniform? : String → Option String
  | "time" => some "u_time"
  | "zoom" => some "u_zoom"
  | "resolution" => some "u_resolution"
  | _ => none

end Glsl

namespace Emission

open Glsl (Term)

def literal (path : Path) (outcome : Except Glsl.NonFinite Term) : RegistryM Term :=
  match outcome with
  | .ok t => pure t
  | .error e => Registry.fail path (.unrepresentable e)

def emitGet (stage : Stage) (path : Path) (name : String) (type : Ty) : RegistryM Term := do
  let ident ← Registry.property path name type stage
  if type = .color ∧ stage = .vertex then
    Registry.addFunction .vertex Glsl.unpackFunction
    return Glsl.unpack (.name ident)
  else return Glsl.readTerm ident type

def emitVar (stage : Stage) (path : Path) (name : String) (type : Ty) : RegistryM Term := do
  let ident ← Registry.styleVariable path name type
  if type = .color then
    Registry.addFunction stage Glsl.unpackFunction
    return Glsl.unpack (.name ident)
  else return Glsl.readTerm ident type

mutual

/-- The code of an expression in a stage. -/
def emit (stage : Stage) : Expr → RegistryM Term
  | .number path x => literal path (Glsl.number x)
  | .bool _ b => return .bool b
  | .text path s => do
    literal path (Glsl.number (.ofInt (← Registry.category s)))
  | .color path c => literal path (Glsl.color c)
  | .array path xs => literal path (Glsl.array xs)
  | .get path name type => emitGet stage path name type
  | .var path name type => emitVar stage path name type
  | .builtin path name =>
    match Glsl.builtinUniform? name with
    | some ident => return .name ident
    | none => Registry.fail path (.unknownBuiltin name)
  | .call path op args _ => do
    match Glsl.callTerm op (← emitList stage args) with
    | .ok t => return t
    | .error cause => Registry.fail path cause
  | .interpolate path exponent input stops spare _ => do
    let exponent ← literal path (Glsl.number exponent)
    let input ← emit stage input
    match ← emitPairs stage stops with
    | [] => if spare.isEmpty then Registry.fail path .missingStops else return .name ""
    | (start, output) :: rest => return Glsl.mixChain input exponent output start rest
  | .select _ input alternatives _ fallback _ => do
    let input ← emit stage input
    let fallback ← emit stage fallback
    emitAlternatives stage (fun label => .chain .equal [input, label]) fallback alternatives
  | .cases _ alternatives fallback _ => do
    let fallback ← emit stage fallback
    emitAlternatives stage id fallback alternatives
  | .widen x type => do
    return .call ("vec" ++ toString type.components) [← emit stage x]

def emitList (stage : Stage) : List Expr → RegistryM (List Term)
  | [] => return []
  | e :: es => do
    let t ← emit stage e
    return t :: (← emitList stage es)

/-- Emits pairs in order, the first of each before the second. -/
def emitPairs (stage : Stage) : List (Expr × Expr) → RegistryM (List (Term × Term))
  | [] => return []
  | (a, b) :: rest => do
    let a ← emit stage a
    let b ← emit stage b
    return (a, b) :: (← emitPairs stage rest)

/-- Emits a chain of conditionals from its end: the last alternative comes first. -/
def emitAlternatives (stage : Stage) (condition : Term → Term) (fallback : Term) :
    List (Expr × Expr) → RegistryM Term
  | [] => return fallback
  | (a, b) :: rest => do
    let otherwise ← emitAlternatives stage condition fallback rest
    let a ← emit stage a
    let b ← emit stage b
    return .paren (.choose (condition a) b otherwise)

end

end Emission

/-- The code of an expression in a stage. -/
def emit (stage : Stage) (e : Expr) : RegistryM Glsl.Term := Emission.emit stage e

end ShaderStyle
