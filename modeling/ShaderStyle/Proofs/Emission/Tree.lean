import ShaderStyle.Proofs.Emission.Term
import ShaderStyle.Proofs.Glsl.Literal

/-! The nesting of an expression in the shading language, and that its code is read with it. -/
namespace ShaderStyle

open Glsl (Tree BinaryOp)

/-- Operands joined by one operator, from left to right. -/
def Glsl.Tree.chain (op : BinaryOp) : List Tree → Tree
  | [] => .name ""
  | x :: xs => xs.foldl (.binary op) x

/-- A vector of as many components as there are. -/
def Glsl.Tree.vector (components : List Tree) : Tree :=
  .call ("vec" ++ toString components.length) components

/-- What an operator says about its operands. -/
def Op.tree (op : Op) (args : List Tree) : Tree :=
  match op, args with
  | .round, [x] => .call "floor" [.binary .add x (.literal (.finite (1 / 2)))]
  | .not, [x] => .not x
  | .between, [x, low, high] => .binary .and (.binary .greaterEq x low) (.binary .lessEq x high)
  | .array, xs => .vector xs
  | .color, r :: g :: b :: alpha =>
    alpha.foldl (.binary .mul) (.call "vec4"
      [.binary .div (.call "vec3" [r, g, b]) (.literal (.finite 255)), .literal (.finite 1)])
  | op, xs =>
    match op.binary?, op.function? with
    | some b, _ => .chain b xs
    | none, some f => .call f xs
    | none, none => .name ""

theorem Op.tree_chain {op : Op} {b : BinaryOp} (joined : op.binary? = some b) (xs : List Tree) :
    op.tree xs = .chain b xs := by
  cases op <;> cases joined <;> rfl

theorem Op.tree_function {op : Op} {f : String} (called : op.function? = some f)
    (xs : List Tree) : op.tree xs = .call f xs := by
  cases op <;> cases called <;> rfl

/-- One step of an interpolation. -/
def Glsl.Tree.mix (input exponent below start stop output : Tree) : Tree :=
  let position := Tree.binary .div (.binary .sub input start) (.binary .sub stop start)
  .call "mix" [below, output, .call "pow" [
    .call "clamp" [position, .literal (.finite 0), .literal (.finite 1)], exponent]]

/-- The steps of an interpolation over the stops after `start`. -/
def Glsl.Tree.mixes (input exponent : Tree) : (below start : Tree) → List (Tree × Tree) → Tree
  | below, _, [] => below
  | below, start, (stop, output) :: rest =>
    mixes input exponent (.mix input exponent below start stop output) stop rest

/-- An interpolation over all stops. -/
def Glsl.Tree.interpolation (input exponent : Tree) : List (Tree × Tree) → Tree
  | [] => .name ""
  | (start, output) :: rest => .mixes input exponent output start rest

/-- The first alternative whose condition holds. -/
def Glsl.Tree.alternatives (condition : Tree → Tree) (fallback : Tree) :
    List (Tree × Tree) → Tree
  | [] => fallback
  | (a, b) :: rest => .choose (condition a) b (alternatives condition fallback rest)

/-- A stored value as it is read: a boolean is stored as a number. -/
def Glsl.Tree.stored (ident : String) : Ty → Tree
  | .boolean => .binary .greater (.name ident) (.literal (.finite 0))
  | _ => .name ident

/-- A stored color, which is packed. -/
def Glsl.Tree.unpacked (ident : String) : Tree := .call Glsl.unpackFunctionName [.name ident]

namespace Expr

mutual

/-- The nesting of an expression in a stage, with the numbers that the table gives to texts. -/
def tree (stage : Stage) (c : Categories) : Expr → Tree
  | .number _ x => .literal x
  | .bool _ b => .bool b
  | .text _ s => .literal (.ofInt (c.number s))
  | .color _ rgba => .vector (rgba.premultiplied.map .literal)
  | .array _ xs => .vector (xs.map .literal)
  | .get _ name type =>
    if type = .color ∧ stage = .vertex then .unpacked (Reference.propertyIdent name stage)
    else .stored (Reference.propertyIdent name stage) type
  | .var _ name type =>
    if type = .color then .unpacked (Glsl.uniformName name)
    else .stored (Glsl.uniformName name) type
  | .builtin _ name => .name ((Glsl.builtinUniform? name).getD "")
  | .call _ op args _ => op.tree (treeList stage c args)
  | .interpolate _ exponent input stops _ _ =>
    .interpolation (input.tree stage c) (.literal exponent) (treePairs stage c stops)
  | .select _ input alternatives _ fallback _ =>
    .alternatives (.binary .equal (input.tree stage c)) (fallback.tree stage c)
      (treePairs stage c alternatives)
  | .cases _ alternatives fallback _ =>
    .alternatives id (fallback.tree stage c) (treePairs stage c alternatives)
  | .widen x type => .call ("vec" ++ toString type.components) [x.tree stage c]

def treeList (stage : Stage) (c : Categories) : List Expr → List Tree
  | [] => []
  | e :: es => e.tree stage c :: treeList stage c es

def treePairs (stage : Stage) (c : Categories) : List (Expr × Expr) → List (Tree × Tree)
  | [] => []
  | (a, b) :: rest => (a.tree stage c, b.tree stage c) :: treePairs stage c rest

end

variable {stage : Stage} {c : Categories}

theorem treeList_eq (es : List Expr) : treeList stage c es = es.map (tree stage c) := by
  induction es with
  | nil => rfl
  | cons e es ih => rw [treeList, ih, List.map_cons]

theorem treePairs_eq (ps : List (Expr × Expr)) :
    treePairs stage c ps = ps.map fun p => (p.1.tree stage c, p.2.tree stage c) := by
  induction ps with
  | nil => rfl
  | cons p ps ih => rw [treePairs, ih, List.map_cons]

end Expr

end ShaderStyle
