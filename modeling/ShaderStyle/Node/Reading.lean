import ShaderStyle.Issue
import ShaderStyle.Node.Basic

/-! Reading expressions from values. All that is wrong with the structure is reported. -/
namespace ShaderStyle.Node

/-- The forms that are not plain operators. -/
inductive Form where
  | get | var | interpolate | select | cases
  | builtin
  | operator (op : Op)
  deriving DecidableEq

/-- Names of the numbers that the renderer provides. -/
def builtins : List String := ["time", "zoom", "resolution"]

def Form.ofName? (name : String) : Option Form :=
  match name with
  | "get" => some .get
  | "var" => some .var
  | "interpolate" => some .interpolate
  | "match" => some .select
  | "case" => some .cases
  | _ => if name ∈ builtins then some .builtin else (Op.ofName? name).map .operator

def readNumber (path : Path) (x : Double) : Checked Node :=
  if x.isFinite then .ok (.number path x) else .fail path (.nonFinite x)

/-- The first component that is not finite is reported at its index. -/
def readArray (path : Path) (xs : List Double) : Checked Node :=
  if xs.length < 2 || 4 < xs.length then .fail path (.arrayLength xs.length)
  else
    match xs.findIdx? fun x => !x.isFinite with
    | some i => .fail (path.index i) (.nonFinite (xs.getD i .nan))
    | none => .ok (.array path xs)

/-- Reads the name that a reference starts with. -/
def readName (path : Path) (form : String) : List Value → Checked String
  | [] => .fail path (.missingName form)
  | .text name :: _ => .ok name
  | v :: _ => .fail (path.index 1) (.nameNotText form v)

def readGet (path : Path) (operands : List Value) : Checked Node := do
  let name ← readName path "get" operands
  match operands with
  | [_] => .ok (.get path name none)
  | [_, .text hint] =>
    match Hint.ofName? hint with
    | some h => .ok (.get path name (some h))
    | none => .fail (path.index 2) (.unknownHint hint)
  | [_, v] => .fail (path.index 2) (.hintNotText v)
  | _ => .fail path (.getOperands operands.length)

def readVar (path : Path) (operands : List Value) : Checked Node := do
  let name ← readName path "var" operands
  if operands.length = 1 then .ok (.var path name)
  else .fail path (.varOperands operands.length)

def readBuiltin (path : Path) (name : String) (operands : List Value) : Checked Node :=
  if operands.isEmpty then .ok (.builtin path name)
  else .fail path (.builtinOperands name operands.length)

/-- Reads a literal that an input is compared with. -/
def readLabel (path : Path) (v : Value) : Checked Node :=
  match v.number? with
  | some x => readNumber path x
  | none =>
    match v with
    | .text s => .ok (.text path s)
    | .bool b => .ok (.bool path b)
    | v => .fail path (.labelNotLiteral v)

/-- The exponent of an interpolation: one if linear, else the base. -/
def readExponent (path : Path) (v : Value) : Checked Double :=
  match v with
  | .list [.text "linear"] => .ok (.finite 1)
  | .list [.text "exponential", base] =>
    match base.number? with
    | some x => .ok x
    | none => .fail (path.index 1) (.interpolationBase base)
  | v => .fail path (.interpolationType v)

def Arity.admits (a : Op.Arity) (n : Nat) : Bool := a.min ≤ n && a.max.all fun m => n ≤ m

/-- Neighbours of an even list. -/
def pairs {α : Type} : List α → List (α × α)
  | a :: b :: rest => (a, b) :: pairs rest
  | _ => []

/-- Pairs up all but the last element. -/
def pairsWithLast? {α : Type} : List α → Option (List (α × α) × α)
  | [] => none
  | [a] => some ([], a)
  | a :: b :: rest => (pairsWithLast? rest).map fun (ps, last) => ((a, b) :: ps, last)

/-- Stops that are literals and neighbours have to increase. -/
def checkStops : List (Node × Node) → Checked Unit
  | (.number _ previous, _) :: (.number path next, output) :: rest =>
    if next.le previous then .fail path (.stopOrder next previous)
    else checkStops ((.number path next, output) :: rest)
  | _ :: rest => checkStops rest
  | [] => .ok ()

def interpolateOf (path : Path) (exponent : Double) : List Node → Checked Node
  | [] => .fail path (.interpolateOperands 0)
  | input :: rest => do
    let stops := pairs rest
    checkStops stops
    return .interpolate path exponent input stops

def casesOf (path : Path) (args : List Node) : Checked Node :=
  match pairsWithLast? args with
  | some (alternatives, fallback) => .ok (.cases path alternatives fallback)
  | none => .fail path .caseFallback

mutual

/-- Reads an expression. An array that starts with a text applies the operator of that name. -/
def read (path : Path) : Value → Checked Node
  | .null => .fail path .missingValue
  | .bool b => .ok (.bool path b)
  | .text s => .ok (.text path s)
  | .double x | .single x => readNumber path x
  | .integer _ n => readNumber path (.ofInt n)
  | .numeral s =>
    match (Double.read s).value? with
    | some x => readNumber path x
    | none => .fail path (.unsupportedValue (.numeral s))
  | .doubles xs | .singles xs => readArray path xs
  | .integers type ns =>
    match (Value.integers type ns).numbers? with
    | some xs => readArray path xs
    | none => .fail path (.unsupportedValue (.integers type ns))
  | .record fields => .fail path (.unsupportedValue (.record fields))
  | .timestamp t => .fail path (.unsupportedValue (.timestamp t))
  | .table entries => .fail path (.unsupportedValue (.table entries))
  | .texts ss => .fail path (.unsupportedValue (.texts ss))
  | .list [] => .fail path .emptyArray
  | .list (.text name :: operands) =>
    match Form.ofName? name with
    | none => .fail (path.index 0) (.unknownOperator name)
    | some .get => readGet path operands
    | some .var => readVar path operands
    | some .builtin => readBuiltin path name operands
    | some .interpolate =>
      if operands.length < 6 then .fail path (.interpolateOperands operands.length)
      else if operands.length % 2 ≠ 0 then .fail path .interpolatePairs
      else
        match operands with
        | [] => .fail path (.interpolateOperands 0)
        | type :: rest => do
          let (exponent, args) ← (readExponent (path.index 1) type).both (readArgs path 2 rest)
          interpolateOf path exponent args
    | some .select =>
      if operands.length < 4 || operands.length % 2 ≠ 0 then .fail path .matchFallback
      else
        match operands with
        | [] => .fail path .matchFallback
        | v :: rest => do
          let (fallback, alternatives) := readAlternatives path 2 none rest
          let ((input, fallback), alternatives) ←
            ((read (path.index 1) v).both fallback).both alternatives
          return .select path input alternatives fallback
    | some .cases =>
      if operands.length < 3 || operands.length % 2 ≠ 1 then .fail path .caseFallback
      else readArgs path 1 operands >>= casesOf path
    | some (.operator op) =>
      if Arity.admits op.arity operands.length then do
        return .call path op (← readArgs path 1 operands)
      else .fail path (.operandCount name op.arity operands.length)
  | .list (v :: vs) =>
    match (Value.list (v :: vs)).numbers? with
    | some xs => readArray path xs
    | none => .fail path .mixedArray

/-- Reads operands, the first of which stands at index `i`. -/
def readArgs (path : Path) (i : Nat) : List Value → Checked (List Node)
  | [] => .ok []
  | v :: vs => do
    let (n, ns) ← (read (path.index i) v).both (readArgs path (i + 1) vs)
    return n :: ns

/-- Reads labels with their outputs, and the fallback that comes last. Labels have one kind;
`known` is the kind of those before. -/
def readAlternatives (path : Path) (i : Nat) (known : Option Kind) :
    List Value → Checked Node × Checked (List (Node × Node))
  | [] => (.fail path .matchFallback, .ok [])
  | [v] => (read (path.index i) v, .ok [])
  | l :: o :: rest =>
    let label := readLabel (path.index i) l
    let output := read (path.index (i + 1)) o
    let kind := match label with
      | .ok n => n.labelKind?
      | .error _ => none
    let agreement : Checked Unit := match kind, known with
      | some k, some previous =>
        if k = previous then .ok () else .fail (path.index i) (.labelKind k previous)
      | _, _ => .ok ()
    let (fallback, others) := readAlternatives path (i + 2) (known.or kind) rest
    (fallback, do
      let (((label, output), ()), others) ← ((label.both output).both agreement).both others
      return (label, output) :: others)

end

end ShaderStyle.Node
