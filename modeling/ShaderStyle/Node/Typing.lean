import ShaderStyle.Expr
import ShaderStyle.Issue
import ShaderStyle.Node.Basic

/-! Inference: the kinds that a node can take, and the expression it becomes where the context
accepts a set of kinds. -/
namespace ShaderStyle

/-- The kinds that a style variable with the given value can take. -/
def Value.types (v : Value) : TypeSet :=
  if v.number?.isSome then .numbers
  else
    match v with
    | .bool _ => .booleans
    | .text s => if Color.isColorText s then .ofList [.string, .color] else .singleton .string
    | v =>
      match v.numbers? with
      | none => .empty
      | some xs =>
        if xs.length = 2 then .singleton .array
        else if xs.length = 3 || xs.length = 4 then .ofList [.color, .array]
        else .empty

/-- What surrounds an expression: the variables, and the size of arrays that nothing else sizes. -/
structure Scope where
  vars : OrderedMap String Value
  arraySize : Nat

namespace Node

/-- The kinds all operands share. -/
def common (sets : List TypeSet) : TypeSet := sets.foldl TypeSet.inter .any

/-- The kinds of arithmetic on operands of the given kinds: a number if all can be numbers, and a
vector if one can be that vector and the others can be it or a number. -/
def arithmeticTypes (sets : List TypeSet) : TypeSet :=
  let sets := sets.map fun s => s.inter .mixable
  let numbers := if sets.all fun s => s.has .number then TypeSet.numbers else .empty
  let vector (k : Kind) : TypeSet :=
    if (sets.any fun s => s.has k) && (sets.all fun s => s.has k || s.has .number) then
      .singleton k
    else .empty
  numbers.union ((vector .color).union (vector .array))

mutual

/-- The kinds a node can take. The set is empty if its operands do not fit together. -/
def types (scope : Scope) : Node → TypeSet
  | .number _ _ | .builtin _ _ => .numbers
  | .bool _ _ => .booleans
  | .text _ s => if Color.isColorText s then .ofList [.string, .color] else .singleton .string
  | .array _ xs => if 3 ≤ xs.length then .ofList [.color, .array] else .singleton .array
  | .get _ _ (some hint) => hint.set
  | .get _ _ none => .any
  | .var _ name =>
    match scope.vars.get? name with
    | some v => v.types
    | none => .any
  | .call _ op args =>
    if op.isArithmetic then arithmeticTypes (typesList scope args)
    else (op.resultType args.length).set
  | .interpolate _ _ _ stops => (common (typesSecond scope stops)).inter .mixable
  | .select _ _ alternatives fallback =>
    (common (typesSecond scope alternatives)).inter (fallback.types scope)
  | .cases _ alternatives fallback =>
    (common (typesSecond scope alternatives)).inter (fallback.types scope)

def typesList (scope : Scope) : List Node → List TypeSet
  | [] => []
  | n :: ns => n.types scope :: typesList scope ns

def typesSecond (scope : Scope) : List (Node × Node) → List TypeSet
  | [] => []
  | (_, n) :: ns => n.types scope :: typesSecond scope ns

end

/-- The kind of highest priority among those that are available and expected. -/
def pickKind (path : Path) (available expected : TypeSet) : Checked Kind :=
  match (available.inter expected).pick with
  | some k => .ok k
  | none => .fail path (.unusable available expected)

/-- The vector that a number is turned into where only vectors are accepted. -/
def widenTarget? (scope : Scope) (available expected : TypeSet) : Option Ty :=
  if (available.inter expected).isEmpty && available.has .number then
    (expected.inter .vectors).pick.map (Ty.ofKind scope.arraySize)
  else none

/-- Resolves in a context, widening a number where no kind fits otherwise. -/
def widening (scope : Scope) (available : TypeSet) (resolve : TypeSet → Checked Expr)
    (expected : TypeSet) : Checked Expr :=
  match widenTarget? scope available expected with
  | some target => (resolve .numbers).map fun x => .widen x target
  | none => resolve expected

/-- The type that all expressions have. -/
def sameType : List Expr → Checked Ty
  | [] => .ok .invalid
  | e :: es =>
    match es.find? fun x => x.type ≠ e.type with
    | some x => .fail x.source (.mismatchedTypes e.type x.type)
    | none => .ok e.type

/-- Without a hint, a property is of the only kind expected, else a number if that is accepted. -/
def propertyKind? (expected : TypeSet) : Option Kind :=
  if expected.isSingleton then expected.pick
  else if expected.has .number then some .number
  else expected.pick

def resolveGet (scope : Scope) (path : Path) (name : String) (hint : Option Hint)
    (expected : TypeSet) : Checked Expr :=
  match hint with
  | some h => do
    discard (pickKind path h.set expected)
    return .get path name (h.type scope.arraySize)
  | none =>
    match propertyKind? expected with
    | some k => .ok (.get path name (.ofKind scope.arraySize k))
    | none => .fail path (.uninferable name)

def resolveVar (scope : Scope) (path : Path) (name : String) (expected : TypeSet) :
    Checked Expr :=
  match scope.vars.get? name with
  | none => .fail path (.undefinedVariable name)
  | some v =>
    if v.types.isEmpty then .fail path (.unusableVariable name v)
    else do
      let k ← pickKind path v.types expected
      return .var path name (.ofKind scope.arraySize k)

/-- Whether an operand can only be a vector; then operands that can be numbers are numbers. -/
def hasFixedVector (k : Kind) (sets : List TypeSet) : Bool :=
  sets.any fun s => s.has k && !s.has .number

/-- What an operand of vector arithmetic has to be. -/
def operandSet (k : Kind) (hasFixed : Bool) (available : TypeSet) : TypeSet :=
  if available.has k && !(hasFixed && available.has .number) then .singleton k else .numbers

/-- The type of vector arithmetic is that of its vectors. -/
def vectorCall (path : Path) (op : Op) (k : Kind) (args : List Expr) : Checked Expr := do
  let vectors := args.filter fun e => e.type ≠ .number
  if vectors.isEmpty then .fail path (.vectorlessCall op k)
  else return .call path op args (← sameType vectors)

mutual

/-- The expression a node becomes; the context accepts the kinds of `expected`. -/
def resolve (scope : Scope) (n : Node) (expected : TypeSet) : Checked Expr :=
  match n with
  | .number path x => do
    discard (pickKind path .numbers expected)
    return .number path x
  | .bool path b => do
    discard (pickKind path .booleans expected)
    return .bool path b
  | .text path s => do
    let k ← pickKind path ((Node.text path s).types scope) expected
    match k, Color.ofText s with
    | .color, .ok c => return .color path c
    | _, _ => return .text path s
  | .array path xs => do
    let k ← pickKind path ((Node.array path xs).types scope) expected
    if k = .color then
      match Color.ofList? xs with
      | some c => return .color path c
      | none => .fail path (.colorArray (.arraySize xs.length))
    else return .array path xs
  | .get path name hint => resolveGet scope path name hint expected
  | .var path name => resolveVar scope path name expected
  | .builtin path name => do
    discard (pickKind path .numbers expected)
    return .builtin path name
  | .call path op args =>
    if op.isArithmetic then
      let sets := typesList scope args
      let available := arithmeticTypes sets
      if available.isEmpty then .fail path (.arithmeticOperands op)
      else do
        let k ← pickKind path available expected
        if k = .number then
          return .call path op (← resolveList scope args .numbers) .number
        else
          vectorCall path op k
            (← resolveOperands scope k (hasFixedVector k sets) args)
    else do
      discard (pickKind path (op.resultType args.length).set expected)
      match op.operandKind? with
      | some k =>
        return .call path op (← resolveList scope args (.singleton k)) (op.resultType args.length)
      | none =>
        let sets := typesList scope args
        match (common sets).pick with
        | none =>
          .fail path (.incomparable op (sets.getD 0 .empty) (sets.getD 1 .empty))
        | some k =>
          let args ← resolveList scope args (.singleton k)
          discard (sameType args)
          return .call path op args (op.resultType args.length)
  | .interpolate path exponent input stops => do
    let available := (common (typesSecond scope stops)).inter .mixable
    let k ← pickKind path available expected
    let (input, values, outputs) ←
      (widening scope (input.types scope) (fun e => input.resolve scope e) .numbers).both
        ((resolveFirst scope stops .numbers).both (resolveSecond scope stops (.singleton k)))
    return .interpolate path exponent input (values.zip outputs) [] (← sameType outputs)
  | .select path input alternatives fallback => do
    let available := (common (typesSecond scope alternatives)).inter (fallback.types scope)
    let k ← pickKind path available expected
    let labelSet := match alternatives.head?.bind fun a => a.1.labelKind? with
      | some k => TypeSet.singleton k
      | none => .empty
    let (input, labels, outputs, fallback) ←
      (widening scope (input.types scope) (fun e => input.resolve scope e) labelSet).both
        ((resolveFirst scope alternatives labelSet).both
          ((resolveSecond scope alternatives (.singleton k)).both
            (widening scope (fallback.types scope) (fun e => fallback.resolve scope e)
              (.singleton k))))
    return .select path input (labels.zip outputs) [] fallback (← sameType (outputs ++ [fallback]))
  | .cases path alternatives fallback => do
    let available := (common (typesSecond scope alternatives)).inter (fallback.types scope)
    let k ← pickKind path available expected
    let (conditions, outputs, fallback) ←
      (resolveFirst scope alternatives .booleans).both
        ((resolveSecond scope alternatives (.singleton k)).both
          (widening scope (fallback.types scope) (fun e => fallback.resolve scope e)
            (.singleton k)))
    return .cases path (conditions.zip outputs) fallback (← sameType (outputs ++ [fallback]))

/-- Resolves operands that the context treats alike. -/
def resolveList (scope : Scope) (ns : List Node) (expected : TypeSet) : Checked (List Expr) :=
  match ns with
  | [] => .ok []
  | n :: ns => do
    let (e, es) ← (widening scope (n.types scope) (fun s => n.resolve scope s) expected).both
      (resolveList scope ns expected)
    return e :: es

/-- Resolves the operands of vector arithmetic. -/
def resolveOperands (scope : Scope) (k : Kind) (hasFixed : Bool) (ns : List Node) :
    Checked (List Expr) :=
  match ns with
  | [] => .ok []
  | n :: ns => do
    let available := n.types scope
    let (e, es) ← (widening scope available (fun s => n.resolve scope s)
        (operandSet k hasFixed available)).both
      (resolveOperands scope k hasFixed ns)
    return e :: es

def resolveFirst (scope : Scope) (ns : List (Node × Node)) (expected : TypeSet) :
    Checked (List Expr) :=
  match ns with
  | [] => .ok []
  | (n, _) :: ns => do
    let (e, es) ← (widening scope (n.types scope) (fun s => n.resolve scope s) expected).both
      (resolveFirst scope ns expected)
    return e :: es

def resolveSecond (scope : Scope) (ns : List (Node × Node)) (expected : TypeSet) :
    Checked (List Expr) :=
  match ns with
  | [] => .ok []
  | (_, n) :: ns => do
    let (e, es) ← (widening scope (n.types scope) (fun s => n.resolve scope s) expected).both
      (resolveSecond scope ns expected)
    return e :: es

end

/-- Builds the expression of a node where the context accepts the kinds of `expected`. -/
def build (scope : Scope) (n : Node) (expected : TypeSet) : Checked Expr :=
  widening scope (n.types scope) (n.resolve scope) expected

end Node

end ShaderStyle
