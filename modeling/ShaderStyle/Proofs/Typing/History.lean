import ShaderStyle.Proofs.Typing.Answers

/-! Building does not depend on the calls before. A session keeps its state from call to call: the
issues are added where they are found, and the size of arrays is the one that the last call set.
It answers like a builder, whose answers are those of a new one. -/
namespace ShaderStyle

/-- A builder with the size of arrays that nothing else sizes, in the expression being built. -/
structure Session where
  vars : OrderedMap String Value
  issues : List Issue
  arraySize : Nat

namespace Session

def new (vars : OrderedMap String Value) : Session := ⟨vars, [], 0⟩

def scope (s : Session) : Scope := ⟨s.vars, s.arraySize⟩

def report (s : Session) (is : List Issue) : Session := { s with issues := s.issues ++ is }

def toBuilder (s : Session) : Builder := ⟨s.vars, s.issues⟩

theorem scope_report (s : Session) (is : List Issue) : (s.report is).scope = s.scope := rfl

theorem report_report (s : Session) (is js : List Issue) :
    (s.report is).report js = s.report (is ++ js) := by
  rw [report, report, report, List.append_assoc]

end Session

/-- A step in a session. A step that fails leaves the session as it is then. -/
def Action (α : Type) : Type := Session → Option α × Session

namespace Action

variable {α β : Type}

instance : Monad Action where
  pure a := fun s => (some a, s)
  bind x f := fun s =>
    match x s with
    | (some a, t) => f a t
    | (none, t) => (none, t)

theorem bind_apply (x : Action α) (f : α → Action β) (s : Session) :
    (x >>= f) s =
      match x s with
      | (some a, t) => f a t
      | (none, t) => (none, t) := rfl

/-- Both steps, the second one also after a failure of the first. -/
def both (x : Action α) (y : Action β) : Action (α × β) := fun s =>
  match x s with
  | (some a, t) =>
    match y t with
    | (some b, u) => (some (a, b), u)
    | (none, u) => (none, u)
  | (none, t) => (none, (y t).2)

/-- Adds what a check finds wrong to the issues. -/
def check (x : Checked α) : Action α := fun s =>
  match x with
  | .ok a => (some a, s)
  | .error is => (none, s.report is)

/-- The variables and the size of arrays as they are now. -/
def scope : Action Scope := fun s => (some s.scope, s)

/-- Starts an expression whose arrays have `size` components. -/
def start (size : Nat) : Action Unit := fun s => (some (), { s with arraySize := size })

end Action

namespace Node

open ShaderStyle.Action (check)

/-- Resolves in a session, widening a number where no kind fits otherwise. -/
def widenIn (types : Scope → TypeSet) (resolve : TypeSet → Action Expr) (expected : TypeSet) :
    Action Expr := do
  let scope ← Action.scope
  match widenTarget? scope (types scope) expected with
  | some target => return .widen (← resolve .numbers) target
  | none => resolve expected

def resolveGetIn (path : Path) (name : String) (hint : Option Hint) (expected : TypeSet) :
    Action Expr :=
  match hint with
  | some h => do
    discard (check (pickKind path h.set expected))
    return .get path name (h.type (← Action.scope).arraySize)
  | none =>
    match propertyKind? expected with
    | some k => return .get path name (.ofKind (← Action.scope).arraySize k)
    | none => check (.fail path (.uninferable name))

def resolveVarIn (path : Path) (name : String) (expected : TypeSet) : Action Expr := do
  match (← Action.scope).vars.get? name with
  | none => check (.fail path (.undefinedVariable name))
  | some v =>
    if v.types.isEmpty then check (.fail path (.unusableVariable name v))
    else do
      let k ← check (pickKind path v.types expected)
      return .var path name (.ofKind (← Action.scope).arraySize k)

mutual

/-- Resolves in a session, which is asked for the variables and the size of arrays at each use. -/
@[simp]
def resolveIn (n : Node) (expected : TypeSet) : Action Expr :=
  match n with
  | .number path x => do
    discard (check (pickKind path .numbers expected))
    return .number path x
  | .bool path b => do
    discard (check (pickKind path .booleans expected))
    return .bool path b
  | .text path s => do
    let k ← check (pickKind path ((Node.text path s).types (← Action.scope)) expected)
    match k, Color.ofText s with
    | .color, .ok c => return .color path c
    | _, _ => return .text path s
  | .array path xs => do
    let k ← check (pickKind path ((Node.array path xs).types (← Action.scope)) expected)
    if k = .color then
      match Color.ofList? xs with
      | some c => return .color path c
      | none => check (.fail path (.colorArray (.arraySize xs.length)))
    else return .array path xs
  | .get path name hint => resolveGetIn path name hint expected
  | .var path name => resolveVarIn path name expected
  | .builtin path name => do
    discard (check (pickKind path .numbers expected))
    return .builtin path name
  | .call path op args =>
    if op.isArithmetic then do
      let sets := typesList (← Action.scope) args
      let available := arithmeticTypes sets
      if available.isEmpty then check (.fail path (.arithmeticOperands op))
      else do
        let k ← check (pickKind path available expected)
        if k = .number then
          return .call path op (← resolveListIn args .numbers) .number
        else
          let es ← resolveOperandsIn k (hasFixedVector k sets) args
          check (vectorCall path op k es)
    else do
      discard (check (pickKind path (op.resultType args.length).set expected))
      match op.operandKind? with
      | some k =>
        return .call path op (← resolveListIn args (.singleton k)) (op.resultType args.length)
      | none =>
        let sets := typesList (← Action.scope) args
        match (common sets).pick with
        | none =>
          check (.fail path (.incomparable op (sets.getD 0 .empty) (sets.getD 1 .empty)))
        | some k =>
          let args ← resolveListIn args (.singleton k)
          discard (check (sameType args))
          return .call path op args (op.resultType args.length)
  | .interpolate path exponent input stops => do
    let available := (common (typesSecond (← Action.scope) stops)).inter .mixable
    let k ← check (pickKind path available expected)
    let (input, values, outputs) ←
      (widenIn (fun s => input.types s) (fun e => input.resolveIn e) .numbers).both
        ((resolveFirstIn stops .numbers).both (resolveSecondIn stops (.singleton k)))
    return .interpolate path exponent input (values.zip outputs) [] (← check (sameType outputs))
  | .select path input alternatives fallback => do
    let scope ← Action.scope
    let available := (common (typesSecond scope alternatives)).inter (fallback.types scope)
    let k ← check (pickKind path available expected)
    let labelSet := match alternatives.head?.bind fun a => a.1.labelKind? with
      | some k => TypeSet.singleton k
      | none => .empty
    let (input, labels, outputs, fallback) ←
      (widenIn (fun s => input.types s) (fun e => input.resolveIn e) labelSet).both
        ((resolveFirstIn alternatives labelSet).both
          ((resolveSecondIn alternatives (.singleton k)).both
            (widenIn (fun s => fallback.types s) (fun e => fallback.resolveIn e)
              (.singleton k))))
    return .select path input (labels.zip outputs) [] fallback
      (← check (sameType (outputs ++ [fallback])))
  | .cases path alternatives fallback => do
    let scope ← Action.scope
    let available := (common (typesSecond scope alternatives)).inter (fallback.types scope)
    let k ← check (pickKind path available expected)
    let (conditions, outputs, fallback) ←
      (resolveFirstIn alternatives .booleans).both
        ((resolveSecondIn alternatives (.singleton k)).both
          (widenIn (fun s => fallback.types s) (fun e => fallback.resolveIn e) (.singleton k)))
    return .cases path (conditions.zip outputs) fallback
      (← check (sameType (outputs ++ [fallback])))

@[simp]
def resolveListIn (ns : List Node) (expected : TypeSet) : Action (List Expr) :=
  match ns with
  | [] => return []
  | n :: ns => do
    let (e, es) ← (widenIn (fun s => n.types s) (fun s => n.resolveIn s) expected).both
      (resolveListIn ns expected)
    return e :: es

@[simp]
def resolveOperandsIn (k : Kind) (hasFixed : Bool) (ns : List Node) : Action (List Expr) :=
  match ns with
  | [] => return []
  | n :: ns => do
    let set := operandSet k hasFixed (n.types (← Action.scope))
    let (e, es) ← (widenIn (fun s => n.types s) (fun s => n.resolveIn s) set).both
      (resolveOperandsIn k hasFixed ns)
    return e :: es

@[simp]
def resolveFirstIn (ns : List (Node × Node)) (expected : TypeSet) : Action (List Expr) :=
  match ns with
  | [] => return []
  | (n, _) :: ns => do
    let (e, es) ← (widenIn (fun s => n.types s) (fun s => n.resolveIn s) expected).both
      (resolveFirstIn ns expected)
    return e :: es

@[simp]
def resolveSecondIn (ns : List (Node × Node)) (expected : TypeSet) : Action (List Expr) :=
  match ns with
  | [] => return []
  | (_, n) :: ns => do
    let (e, es) ← (widenIn (fun s => n.types s) (fun s => n.resolveIn s) expected).both
      (resolveSecondIn ns expected)
    return e :: es

end

end Node

namespace Action

variable {α β : Type}

/-- In a session with the given scope, the step does what the check does: it gives the same, or adds
the same issues. The scope stays what it was. -/
def Runs (scope : Scope) (x : Action α) (y : Checked α) : Prop :=
  ∀ s : Session, s.scope = scope → x s = check y s

namespace Runs

variable {sc : Scope} {x : Action α} {y : Checked α} {x' : Action β} {y' : Checked β}

theorem check (y : Checked α) : Runs sc (Action.check y) y := fun _ _ => rfl

theorem pure (a : α) : Runs sc (Pure.pure a) (.ok a) := fun _ _ => rfl

theorem bind {f : α → Action β} {g : α → Checked β} (h : Runs sc x y)
    (h' : ∀ a, Runs sc (f a) (g a)) : Runs sc (x >>= f) (y >>= g) := by
  intro s hs
  rw [bind_apply, h s hs]
  cases y with
  | ok a => exact h' a s hs
  | error is => rfl

theorem both (h : Runs sc x y) (h' : Runs sc x' y') : Runs sc (x.both x') (y.both y') := by
  intro s hs
  unfold Action.both
  rw [h s hs]
  cases y with
  | ok a =>
    dsimp only [Action.check]
    rw [h' s hs]
    cases y' <;> rfl
  | error is =>
    dsimp only [Action.check]
    rw [h' (s.report is) ((s.scope_report is).trans hs)]
    cases y' with
    | ok b => rfl
    | error js =>
      dsimp only [Action.check]
      rw [Session.report_report]
      rfl

/-- What is looked up in the session is the scope. -/
theorem scope {f : Scope → Action β} (h : Runs sc (f sc) y') : Runs sc (Action.scope >>= f) y' := by
  rintro s rfl
  exact h s rfl

theorem map {f : α → β} (h : Runs sc x y) :
    Runs sc (x >>= fun a => Pure.pure (f a)) (y.map f) := by
  have hbind := h.bind fun a => Runs.pure (f a)
  cases y <;> exact hbind

theorem discard (h : Runs sc x y) : Runs sc (Functor.discard x) (Functor.discard y) := h.map

end Runs

end Action

namespace Node

open ShaderStyle.Action (Runs)

variable {scope : Scope}

/-- Resolving the node in a session does what resolving it in the scope of the session does. -/
def RunsIn (scope : Scope) (n : Node) : Prop :=
  ∀ expected, Runs scope (n.resolveIn expected) (n.resolve scope expected)

theorem runs_widenIn {n : Node} (h : n.RunsIn scope) (expected : TypeSet) :
    Runs scope (widenIn (fun s => n.types s) (fun s => n.resolveIn s) expected)
      (widening scope (n.types scope) (fun s => n.resolve scope s) expected) := by
  unfold widenIn widening
  refine .scope ?_
  dsimp only
  cases widenTarget? scope (n.types scope) expected with
  | some target => exact (h _).map
  | none => exact h _

theorem runs_resolveListIn {ns : List Node} (h : ∀ n ∈ ns, n.RunsIn scope) (expected : TypeSet) :
    Runs scope (resolveListIn ns expected) (resolveList scope ns expected) := by
  induction ns with
  | nil =>
    rw [resolveListIn, resolveList]
    exact .pure _
  | cons n ns ih =>
    rw [resolveListIn, resolveList]
    have hrest := ih fun m hm => h m (List.mem_cons_of_mem _ hm)
    exact ((runs_widenIn (h n (by simp)) expected).both hrest).bind fun _ => .pure _

theorem resolveFirstIn_eq (ps : List (Node × Node)) (expected : TypeSet) :
    resolveFirstIn ps expected = resolveListIn (ps.map Prod.fst) expected := by
  induction ps with
  | nil => rw [resolveFirstIn, List.map_nil, resolveListIn]
  | cons p ps ih => rw [resolveFirstIn, List.map_cons, resolveListIn, ih]

theorem resolveSecondIn_eq (ps : List (Node × Node)) (expected : TypeSet) :
    resolveSecondIn ps expected = resolveListIn (ps.map Prod.snd) expected := by
  induction ps with
  | nil => rw [resolveSecondIn, List.map_nil, resolveListIn]
  | cons p ps ih => rw [resolveSecondIn, List.map_cons, resolveListIn, ih]

theorem runs_resolveFirstIn {ps : List (Node × Node)} (h : ∀ p ∈ ps, p.1.RunsIn scope)
    (expected : TypeSet) :
    Runs scope (resolveFirstIn ps expected) (resolveFirst scope ps expected) := by
  rw [resolveFirstIn_eq, resolveFirst_eq]
  exact runs_resolveListIn (List.forall_mem_map.mpr h) expected

theorem runs_resolveSecondIn {ps : List (Node × Node)} (h : ∀ p ∈ ps, p.2.RunsIn scope)
    (expected : TypeSet) :
    Runs scope (resolveSecondIn ps expected) (resolveSecond scope ps expected) := by
  rw [resolveSecondIn_eq, resolveSecond_eq]
  exact runs_resolveListIn (List.forall_mem_map.mpr h) expected

theorem runs_resolveOperandsIn {ns : List Node} (h : ∀ n ∈ ns, n.RunsIn scope) (k : Kind)
    (hasFixed : Bool) :
    Runs scope (resolveOperandsIn k hasFixed ns) (resolveOperands scope k hasFixed ns) := by
  induction ns with
  | nil =>
    rw [resolveOperandsIn, resolveOperands]
    exact .pure _
  | cons n ns ih =>
    rw [resolveOperandsIn, resolveOperands]
    have hrest := ih fun m hm => h m (List.mem_cons_of_mem _ hm)
    refine .scope ?_
    exact ((runs_widenIn (h n (by simp)) _).both hrest).bind fun _ => .pure _

theorem runsIn_text (path : Path) (s : String) : (Node.text path s).RunsIn scope := by
  intro expected
  rw [resolveIn, resolve]
  refine .scope ((Runs.check _).bind fun k => ?_)
  cases k with
  | color => cases Color.ofText s <;> exact .pure _
  | _ => exact .pure _

theorem runsIn_array (path : Path) (xs : List Double) : (Node.array path xs).RunsIn scope := by
  intro expected
  rw [resolveIn, resolve]
  refine .scope ((Runs.check _).bind fun k => ?_)
  split_ifs
  · cases Color.ofList? xs with
    | some c => exact .pure _
    | none => exact .check _
  · exact .pure _

theorem runsIn_get (path : Path) (name : String) (hint : Option Hint) :
    (Node.get path name hint).RunsIn scope := by
  intro expected
  rw [resolveIn, resolve]
  unfold resolveGetIn resolveGet
  cases hint with
  | some h => exact (Runs.check _).discard.bind fun _ => .scope (.pure _)
  | none =>
    dsimp only
    cases propertyKind? expected with
    | some k => exact .scope (.pure _)
    | none => exact .check _

theorem runsIn_var (path : Path) (name : String) : (Node.var path name).RunsIn scope := by
  intro expected
  rw [resolveIn, resolve]
  unfold resolveVarIn resolveVar
  refine .scope ?_
  cases scope.vars.get? name with
  | none => exact .check _
  | some v =>
    dsimp only
    split_ifs
    · exact .check _
    · exact (Runs.check _).bind fun k => .scope (.pure _)

theorem runsIn_call (path : Path) (op : Op) {args : List Node}
    (h : ∀ n ∈ args, n.RunsIn scope) : (Node.call path op args).RunsIn scope := by
  intro expected
  rw [resolveIn, resolve]
  split_ifs
  · refine .scope ?_
    dsimp only
    split_ifs
    · exact .check _
    · refine (Runs.check _).bind fun k => ?_
      split_ifs
      · exact (runs_resolveListIn h _).bind fun es => .pure _
      · exact (runs_resolveOperandsIn h _ _).bind fun es => .check _
  · refine (Runs.check _).discard.bind fun _ => ?_
    cases op.operandKind? with
    | some k => exact (runs_resolveListIn h _).bind fun es => .pure _
    | none =>
      refine .scope ?_
      dsimp only
      cases (common (typesList scope args)).pick with
      | none => exact .check _
      | some k =>
        refine (runs_resolveListIn h _).bind fun es => ?_
        exact (Runs.check _).discard.bind fun _ => .pure _

theorem runsIn_interpolate (path : Path) (exponent : Double) {input : Node}
    {stops : List (Node × Node)} (hinput : input.RunsIn scope)
    (hstops : ∀ p ∈ stops, p.1.RunsIn scope) (houtputs : ∀ p ∈ stops, p.2.RunsIn scope) :
    (Node.interpolate path exponent input stops).RunsIn scope := by
  intro expected
  rw [resolveIn, resolve]
  refine .scope ((Runs.check _).bind fun k => ?_)
  have hpairs := (runs_resolveFirstIn hstops .numbers).both
    (runs_resolveSecondIn houtputs (.singleton k))
  refine ((runs_widenIn hinput _).both hpairs).bind fun p => ?_
  exact (Runs.check _).bind fun t => .pure _

theorem runsIn_select (path : Path) {input fallback : Node} {alternatives : List (Node × Node)}
    (hinput : input.RunsIn scope) (hlabels : ∀ p ∈ alternatives, p.1.RunsIn scope)
    (houtputs : ∀ p ∈ alternatives, p.2.RunsIn scope) (hfallback : fallback.RunsIn scope) :
    (Node.select path input alternatives fallback).RunsIn scope := by
  intro expected
  rw [resolveIn, resolve]
  refine .scope ((Runs.check _).bind fun k => ?_)
  have hrest := (runs_resolveSecondIn houtputs (.singleton k)).both
    (runs_widenIn hfallback (.singleton k))
  refine ((runs_widenIn hinput _).both ((runs_resolveFirstIn hlabels _).both hrest)).bind
    fun p => ?_
  exact (Runs.check _).bind fun t => .pure _

theorem runsIn_cases (path : Path) {fallback : Node} {alternatives : List (Node × Node)}
    (hconditions : ∀ p ∈ alternatives, p.1.RunsIn scope)
    (houtputs : ∀ p ∈ alternatives, p.2.RunsIn scope) (hfallback : fallback.RunsIn scope) :
    (Node.cases path alternatives fallback).RunsIn scope := by
  intro expected
  rw [resolveIn, resolve]
  refine .scope ((Runs.check _).bind fun k => ?_)
  have hrest := (runs_resolveSecondIn houtputs (.singleton k)).both
    (runs_widenIn hfallback (.singleton k))
  refine ((runs_resolveFirstIn hconditions .booleans).both hrest).bind fun p => ?_
  exact (Runs.check _).bind fun t => .pure _

/-- A session resolves a node as its scope does, by induction on the form of the node. -/
theorem WellFormed.runsIn {n : Node} (hn : n.WellFormed) : n.RunsIn scope := by
  induction hn with
  | number | bool | builtin =>
    intro expected
    rw [resolveIn, resolve]
    exact (Runs.check _).discard.bind fun _ => .pure _
  | text path s => exact runsIn_text path s
  | array path => exact runsIn_array path _
  | get path name => exact runsIn_get path name _
  | var path name => exact runsIn_var path name
  | call path _ _ _ operands => exact runsIn_call path _ operands
  | interpolate path exponent _ _ _ _ input stops outputs =>
    exact runsIn_interpolate path exponent input stops outputs
  | select path _ _ _ _ _ _ input labels outputs fallback =>
    exact runsIn_select path input labels outputs fallback
  | cases path _ _ _ _ conditions outputs fallback =>
    exact runsIn_cases path conditions outputs fallback

end Node

/-- The components of arrays that nothing else sizes, in an expression of the type. -/
def Ty.arraySize : Ty → Nat
  | .array size => size
  | _ => defaultArraySize

namespace Session

open ShaderStyle.Action (check)
open Builder (Request)

/-- Builds an expression whose unsized arrays have `size` components. Reading only adds issues. -/
def buildIn (path : Path) (raw : Value) (expected : TypeSet) (size : Nat) : Action Expr := do
  Action.start size
  let n ← check (Node.read path raw)
  Node.widenIn (fun s => n.types s) (fun s => n.resolveIn s) expected

def perform : Request → Action Expr
  | .kinds path raw expected => buildIn path raw expected defaultArraySize
  | .type path raw want => do
    let e ← buildIn path raw want.set want.arraySize
    if e.type = want then return e else check (.fail path (.unexpectedType e.type want))

/-- The answer to a call, and the session after it. -/
def serve (s : Session) (request : Request) : Option Expr × Session := perform request s

def serveAll (s : Session) : List Request → List (Option Expr) × Session
  | [] => ([], s)
  | request :: requests =>
    let (answer, next) := s.serve request
    let (answers, last) := next.serveAll requests
    (answer :: answers, last)

end Session

namespace Builder

/-- What a call comes to for the variables alone. -/
def Request.outcome (vars : OrderedMap String Value) : Request → Checked Expr
  | .kinds path raw expected => buildExpr ⟨vars, defaultArraySize⟩ path raw expected
  | .type path raw want => buildOfType vars path raw want

theorem serve_eq_collect (b : Builder) (request : Request) :
    b.serve request = b.collect (request.outcome b.vars) := by
  cases request <;> rfl

theorem collect_eq (b : Builder) (outcome : Checked Expr) :
    b.collect outcome = (outcome.toOption, ⟨b.vars, b.issues ++ outcome.issues⟩) := by
  cases outcome with
  | ok e =>
    rw [Checked.issues, List.append_nil]
    rfl
  | error is => rfl

end Builder

namespace Session

open ShaderStyle.Action (Runs check)
open Builder (Request)

theorem runs_read_build (scope : Scope) (path : Path) (raw : Value) (expected : TypeSet) :
    Runs scope (check (Node.read path raw) >>= fun n =>
        Node.widenIn (fun s => n.types s) (fun s => n.resolveIn s) expected)
      (buildExpr scope path raw expected) := by
  intro s hs
  unfold buildExpr
  cases h : Node.read path raw with
  | ok n => exact Node.runs_widenIn (Node.read_wellFormed path raw h).runsIn expected s hs
  | error is => rfl

theorem buildIn_eq (s : Session) (path : Path) (raw : Value) (expected : TypeSet) (size : Nat) :
    buildIn path raw expected size s =
      check (buildExpr ⟨s.vars, size⟩ path raw expected) { s with arraySize := size } :=
  runs_read_build ⟨s.vars, size⟩ path raw expected { s with arraySize := size } rfl

theorem buildOfType_eq (vars : OrderedMap String Value) (path : Path) (raw : Value) (want : Ty) :
    buildOfType vars path raw want = buildExpr ⟨vars, want.arraySize⟩ path raw want.set >>= fun e =>
      if e.type = want then .ok e else .fail path (.unexpectedType e.type want) := by
  cases want <;> rfl

theorem perform_type_eq (s : Session) (path : Path) (raw : Value) (want : Ty) :
    perform (.type path raw want) s =
      check (buildOfType s.vars path raw want) { s with arraySize := want.arraySize } := by
  rw [perform, buildOfType_eq, Action.bind_apply, buildIn_eq, ← Action.bind_apply]
  have hbuild (e : Expr) : Runs ⟨s.vars, want.arraySize⟩
      (if e.type = want then pure e else check (.fail path (.unexpectedType e.type want)))
      (if e.type = want then .ok e else .fail path (.unexpectedType e.type want)) := by
    split_ifs
    · exact .pure e
    · exact .check _
  exact (Runs.check _).bind hbuild _ rfl

/-- A session answers a call with what the call comes to for its variables. Only the array size is
left behind besides the issues. -/
theorem exists_serve_eq (s : Session) (request : Request) :
    ∃ size, s.serve request = check (request.outcome s.vars) { s with arraySize := size } := by
  cases request with
  | kinds path raw expected => exact ⟨defaultArraySize, buildIn_eq s path raw expected _⟩
  | type path raw want => exact ⟨want.arraySize, perform_type_eq s path raw want⟩

/-- A session answers a call as a builder does. -/
theorem toBuilder_serve (s : Session) (request : Request) :
    s.toBuilder.serve request = ((s.serve request).1, (s.serve request).2.toBuilder) := by
  obtain ⟨size, hserve⟩ := s.exists_serve_eq request
  rw [hserve, Builder.serve_eq_collect, toBuilder]
  cases request.outcome s.vars <;> rfl

/-- What is left behind may be the size of a vector, also where it fails. -/
example : ((Session.new .empty).serve (.type ⟨"size"⟩ (.bool true) (.array 2))).2.arraySize = 2 := by
  cbv

theorem toBuilder_serveAll (s : Session) (requests : List Request) :
    s.toBuilder.serveAll requests =
      ((s.serveAll requests).1, (s.serveAll requests).2.toBuilder) := by
  induction requests generalizing s with
  | nil => rfl
  | cons request requests ih =>
    rw [Builder.serveAll, toBuilder_serve]
    dsimp only
    rw [ih]
    rfl

end Session

namespace Builder

theorem vars_serveAll (b : Builder) (requests : List Request) :
    (b.serveAll requests).2.vars = b.vars := by
  induction requests generalizing b with
  | nil => rfl
  | cons request requests ih =>
    rw [serveAll]
    dsimp only
    rw [ih, serve_eq_collect, collect_eq]

/-- Calls before a call do not matter to it: it is answered as by a new builder with the variables,
and adds the issues that it adds there. A session that sets the array size in each call, and reads it
and adds issues wherever it resolves an operand, gives the same answers and issues. -/
theorem serve_after (vars : OrderedMap String Value) (history : List Request)
    (request : Request) :
    let fresh : Builder := ⟨vars, []⟩
    let used := (fresh.serveAll history).2
    let session := ((Session.new vars).serveAll history).2
    (used.serve request).1 = (fresh.serve request).1 ∧
      (used.serve request).2.issues = used.issues ++ (fresh.serve request).2.issues ∧
      session.toBuilder = used ∧ (session.serve request).1 = (fresh.serve request).1 ∧
      (session.serve request).2.issues = session.issues ++ (fresh.serve request).2.issues := by
  intro fresh used session
  have hvars : used.vars = vars := fresh.vars_serveAll history
  have hsession : session.toBuilder = used :=
    (congrArg Prod.snd ((Session.new vars).toBuilder_serveAll history)).symm
  have hused : used.serve request = (((request.outcome vars).toOption),
      ⟨vars, used.issues ++ (request.outcome vars).issues⟩) := by
    rw [serve_eq_collect, collect_eq, hvars]
  have hfresh : fresh.serve request = (((request.outcome vars).toOption),
      ⟨vars, (request.outcome vars).issues⟩) := by
    rw [serve_eq_collect, collect_eq]
    rfl
  have hserve := session.toBuilder_serve request
  rw [hsession, hused] at hserve
  obtain ⟨hanswer, hnext⟩ := Prod.mk.inj hserve
  rw [hused, hfresh]
  refine ⟨rfl, rfl, hsession, hanswer.symm, ?_⟩
  have hissues := congrArg Builder.issues hnext
  rw [← hsession] at hissues
  exact hissues.symm

end Builder

end ShaderStyle
