import ShaderStyle.Node.Reading
import ShaderStyle.Node.Typing

/-! Building typed expressions from values, with the errors of all expressions collected. -/
namespace ShaderStyle

/-- Reads an expression and resolves its types. -/
def buildExpr (scope : Scope) (path : Path) (raw : Value) (expected : TypeSet) : Checked Expr := do
  (← Node.read path raw).build scope expected

/-- Builds an expression of exactly the given type. Arrays without a size take the size of the
type. -/
def buildOfType (vars : OrderedMap String Value) (path : Path) (raw : Value) (want : Ty) :
    Checked Expr := do
  let arraySize := match want with
    | .array size => size
    | _ => defaultArraySize
  let e ← buildExpr ⟨vars, arraySize⟩ path raw want.set
  if e.type = want then return e else .fail path (.unexpectedType e.type want)

/-- The variables of a style, and what is wrong with the expressions built so far. -/
structure Builder where
  vars : OrderedMap String Value
  issues : List Issue := []

namespace Builder

/-- Keeps the expression of an outcome, or its issues. -/
def collect (b : Builder) (outcome : Checked Expr) : Option Expr × Builder :=
  match outcome with
  | .ok e => (some e, b)
  | .error is => (none, { b with issues := b.issues ++ is })

def build (b : Builder) (path : Path) (raw : Value) (expected : TypeSet) :
    Option Expr × Builder :=
  b.collect (buildExpr ⟨b.vars, defaultArraySize⟩ path raw expected)

def buildType (b : Builder) (path : Path) (raw : Value) (want : Ty) : Option Expr × Builder :=
  b.collect (buildOfType b.vars path raw want)

end Builder

end ShaderStyle
