import ShaderStyle.Color.Reading
import ShaderStyle.Diagnostic
import ShaderStyle.Glsl.Term
import ShaderStyle.Operator
import ShaderStyle.Shader

/-! What can be wrong with a style, with the wording of each cause. -/
namespace ShaderStyle

/-- Why an expression or a channel of a style is refused. -/
inductive Cause where
  | nonFinite (x : Double)
  | missingValue
  | unsupportedValue (value : Value)
  | emptyArray
  | mixedArray
  | arrayLength (count : Nat)
  | unknownOperator (name : String)
  | operandCount (name : String) (arity : Op.Arity) (got : Nat)
  | missingName (form : String)
  | nameNotText (form : String) (value : Value)
  | hintNotText (value : Value)
  | unknownHint (hint : String)
  | getOperands (got : Nat)
  | varOperands (got : Nat)
  | builtinOperands (name : String) (got : Nat)
  | interpolateOperands (got : Nat)
  | interpolatePairs
  | interpolationType (value : Value)
  | interpolationBase (value : Value)
  | stopOrder (next previous : Double)
  | matchFallback
  | caseFallback
  | labelNotLiteral (value : Value)
  | labelKind (kind previous : Kind)
  | unusable (available expected : TypeSet)
  | unexpectedType (type want : Ty)
  | mismatchedTypes (type other : Ty)
  | arithmeticOperands (op : Op)
  | incomparable (op : Op) (left right : TypeSet)
  | uninferable (property : String)
  | undefinedVariable (name : String)
  | unusableVariable (name : String) (value : Value)
  | colorArray (error : ColorError)
  | unrepresentable (error : Glsl.NonFinite)
  | identClash (previous name ident : String)
  | conflictingUse (what name : String) (type previous : Ty)
  | redeclared (conflict : Conflict)
  | missingSymbolType
  | unknownSymbolType (name : String)
  | vectorlessCall (op : Op) (kind : Kind)
  | unknownBuiltin (name : String)
  | unsupportedOperator (op : Op)
  | missingOperands (op : Op)
  | missingStops

namespace Cause

/-- The problem behind a cause, or none for a defect of the compiler. -/
def problem? : Cause → Option Problem
  | .labelKind .. | .unusable .. | .unexpectedType .. | .mismatchedTypes .. => some .typing
  | .arithmeticOperands _ | .incomparable .. | .uninferable _ => some .typing
  | .unusableVariable .. | .colorArray _ | .conflictingUse .. | .redeclared _ => some .typing
  | .undefinedVariable _ | .identClash .. => some .resolution
  | .vectorlessCall .. | .unknownBuiltin _ | .unsupportedOperator _ => none
  | .missingOperands _ | .missingStops => none
  | _ => some .structural

private def wantInterpolation : String := ": want [\"linear\"] or [\"exponential\", base]"

private def wantSymbolType : String := ": want square, image, circle or triangle"

def message : Cause → String
  | .nonFinite x => "cannot use non-finite number " ++ x.general
  | .missingValue => "missing value"
  | .unsupportedValue v => "value of type " ++ v.typeName ++ " not supported"
  | .emptyArray => "empty array"
  | .mixedArray =>
    "array literal can only contain numbers (use the array operator to build an array from " ++
      "expressions)"
  | .arrayLength n =>
    "array literal of " ++ toString n ++ " numbers: arrays require 2 to 4 numbers"
  | .unknownOperator name => "unknown operator " ++ Text.quote name
  | .operandCount name arity got =>
    let count := if arity.max = some arity.min then toString arity.min
      else if got < arity.min then "at least " ++ toString arity.min
      else "at most " ++ toString (arity.max.getD 0)
    name ++ " requires " ++ count ++ " operands but got " ++ toString got
  | .missingName form => form ++ " requires a name"
  | .nameNotText form v => form ++ " requires a string name but got " ++ v.shown
  | .hintNotText v => "type hint must be a string but got " ++ v.shown
  | .unknownHint hint => "unknown type hint " ++ Text.quote hint
  | .getOperands n =>
    "get requires a name and an optional type hint but got " ++ toString n ++ " operands"
  | .varOperands n => "var requires exactly one name but got " ++ toString n ++ " operands"
  | .builtinOperands name n => name ++ " requires no operand but got " ++ toString n
  | .interpolateOperands n =>
    "interpolate requires an interpolation type, an input and at least 2 stops but got " ++
      toString n ++ " operands"
  | .interpolatePairs => "interpolate requires stops and outputs to come in pairs"
  | .interpolationType v => "invalid interpolation type " ++ v.shown ++ wantInterpolation
  | .interpolationBase v =>
    "exponential interpolation requires a number base but got " ++ v.shown
  | .stopOrder next previous =>
    "interpolation stops must be strictly increasing: got " ++ next.general ++ " after " ++
      previous.general
  | .matchFallback =>
    "match requires an input, pairs of labels and outputs, and a fallback: missing fallback"
  | .caseFallback =>
    "case requires pairs of conditions and outputs, and a fallback: missing fallback"
  | .labelNotLiteral v =>
    "match labels must be literal numbers, strings or booleans but got " ++ v.shown
  | .labelKind kind previous =>
    "match label of type " ++ kind.name ++ " but previous labels are of type " ++ previous.name
  | .unusable available expected =>
    "cannot use a value of type " ++ available.name ++ " as " ++ expected.name
  | .unexpectedType type want => "cannot use a value of type " ++ type.name ++ " as " ++ want.name
  | .mismatchedTypes type other => "mismatched types " ++ type.name ++ " and " ++ other.name
  | .arithmeticOperands op =>
    "operator " ++ op.name ++
      " requires numbers, or vectors of the same type mixed with numbers"
  | .incomparable op left right =>
    "operator " ++ op.name ++ " cannot compare values of types " ++ left.name ++ " and " ++
      right.name
  | .uninferable property =>
    "cannot infer the type of feature property " ++ Text.quote property
  | .undefinedVariable name => "undefined variable " ++ Text.quote name
  | .unusableVariable name v =>
    "variable " ++ Text.quote name ++ " has a value " ++ v.shown ++ " of type " ++ v.typeName ++
      " which cannot be used in an expression"
  | .colorArray e => e.message
  | .unrepresentable e => e.message
  | .identClash previous name ident =>
    Text.quote previous ++ " and " ++ Text.quote name ++ " are both represented by " ++ ident ++
      " in the shader"
  | .conflictingUse what name type previous =>
    what ++ " " ++ Text.quote name ++ " used as " ++ type.name ++ " but already used as " ++
      previous.name
  | .redeclared conflict => conflict.message
  | .missingSymbolType => "missing symbol type" ++ wantSymbolType
  | .unknownSymbolType name => "unknown symbol type " ++ Text.quote name ++ wantSymbolType
  | .vectorlessCall op kind =>
    "operator " ++ op.name ++ " returns " ++ kind.name ++ " without vector operand"
  | .unknownBuiltin name => "unknown builtin " ++ Text.quote name
  | .unsupportedOperator op => "operator " ++ op.name ++ " not supported"
  | .missingOperands op => "operator " ++ op.name ++ " without its operands"
  | .missingStops => "interpolation without stops"

end Cause

/-- A cause at its place in the style. -/
structure Issue where
  path : Path
  cause : Cause

namespace Issue

def diagnostic (i : Issue) : Diagnostic :=
  let located := Diagnostic.located i.path i.cause.problem? (.plain i.cause.message true)
  if i.cause.problem?.isSome then located else .internal located

end Issue

/-- The outcome of a check that goes on after errors: a value, or all that was found wrong. -/
abbrev Checked (α : Type) := Except (List Issue) α

namespace Checked

variable {α β : Type}

/-- Both outcomes, or the issues of the first followed by those of the second. -/
def both (x : Checked α) (y : Checked β) : Checked (α × β) :=
  match x, y with
  | .ok a, .ok b => .ok (a, b)
  | .ok _, .error is => .error is
  | .error is, .ok _ => .error is
  | .error is, .error js => .error (is ++ js)

def fail (path : Path) (cause : Cause) : Checked α := .error [⟨path, cause⟩]

/-- The issues of an outcome. -/
def issues : Checked α → List Issue
  | .ok _ => []
  | .error is => is

end Checked

end ShaderStyle
