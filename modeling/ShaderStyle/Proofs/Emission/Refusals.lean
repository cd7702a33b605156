import ShaderStyle.Proofs.Emission.Operator
import ShaderStyle.Proofs.Typing.Blame

/-! Why an emission is refused: the style is to blame, at a node of the expression, whatever the
registry holds. -/
namespace ShaderStyle

namespace Registry

variable {α β : Type}

/-- Where the computation fails, in any registry, the style is to blame at one of the places. -/
def Blames (places : Path → Prop) (m : RegistryM α) : Prop :=
  ∀ r i r', m.run.run r = (.error i, r') → places i.path ∧ i.cause.problem?.isSome = true

namespace Blames

variable {places : Path → Prop} {path : Path}

theorem pure (a : α) : Blames places (Pure.pure a : RegistryM α) := by
  intro r i r' h
  cases h

theorem fail {cause : Cause} (place : places path) (problem : cause.problem?.isSome = true) :
    Blames places (Registry.fail path cause : RegistryM α) := by
  intro r i r' h
  cases h
  exact ⟨place, problem⟩

theorem get : Blames places (MonadState.get : RegistryM Registry) := by
  intro r i r' h
  cases h

theorem update (f : Registry → Registry) :
    Blames places (modify f : RegistryM Unit) := by
  intro r i r' h
  cases h

/-- A sequence; what follows is only run with what the first part gives. -/
theorem bindRan {m : RegistryM α} {f : α → RegistryM β} (hm : Blames places m)
    (hf : ∀ a r r', m.run.run r = (.ok a, r') → Blames places (f a)) :
    Blames places (m >>= f) := by
  intro r i r' h
  rcases run_bind_cases h with ⟨j, hfirst, hj⟩ | ⟨a, r₁, hfirst, hrest⟩
  · cases hj
    exact hm r i r' hfirst
  · exact hf a r r₁ hfirst r₁ i r' hrest

theorem bind {m : RegistryM α} {f : α → RegistryM β} (hm : Blames places m)
    (hf : ∀ a, Blames places (f a)) : Blames places (m >>= f) :=
  hm.bindRan fun a _ _ _ => hf a

theorem mono {places' : Path → Prop} {m : RegistryM α} (hm : Blames places m)
    (h : ∀ place, places place → places' place) : Blames places' m :=
  fun r i r' hrun => ⟨h _ (hm r i r' hrun).1, (hm r i r' hrun).2⟩

theorem claim (place : places path) (ident name : String) :
    Blames places (Registry.claim path ident name) := by
  refine get.bind fun r => ?_
  cases r.idents.get? ident with
  | none => exact update _
  | some previous =>
    dsimp only
    split
    · exact .fail place rfl
    · exact .pure ()

theorem declare (place : places path) (change : Shader → Except Conflict Shader) :
    Blames places (Registry.declare path change) := by
  refine get.bind fun r => ?_
  cases change r.shader with
  | ok shader => exact update _
  | error conflict => exact .fail place rfl

theorem checkType (place : places path) (what name : String) (previous type : Ty) :
    Blames places (Registry.checkType path what name previous type) := by
  unfold Registry.checkType
  split
  · exact .pure ()
  · exact .fail place rfl

theorem registerAttribute (place : places path) (name : String) (type : Ty) :
    Blames places (Registry.registerAttribute path name type) := by
  refine get.bind fun r => ?_
  cases r.attributes.get? name with
  | some known => exact (checkType place _ _ _ _).bind fun _ => .pure known
  | none =>
    refine (claim place _ _).bind fun _ => (declare place _).bind fun _ => ?_
    exact (update _).bind fun _ => .pure _

theorem property (place : places path) (name : String) (type : Ty) (stage : Stage) :
    Blames places (Registry.property path name type stage) := by
  refine (registerAttribute place name type).bind fun known => ?_
  have hlast (change : Shader → Except Conflict Shader) (f : Registry → Registry)
      (ident : String) :
      Blames places (do Registry.declare path change; modify f; return ident) :=
    (declare place change).bind fun _ => (update f).bind fun _ => .pure ident
  cases stage with
  | vertex => exact .pure _
  | fragment =>
    cases known.varying with
    | some varying => exact .pure varying
    | none =>
      refine (claim place _ _).bind fun _ => ?_
      dsimp only
      split
      · exact (update _).bind fun _ => hlast _ _ _
      · exact hlast _ _ _

theorem styleVariable (place : places path) (name : String) (type : Ty) :
    Blames places (Registry.styleVariable path name type) := by
  refine get.bind fun r => ?_
  cases r.vars.get? name with
  | some v => exact (checkType place _ _ _ _).bind fun _ => .pure v.ident
  | none =>
    refine (claim place _ _).bind fun _ => (declare place _).bind fun _ => ?_
    exact (update _).bind fun _ => .pure _

theorem literal (place : places path) (outcome : Except Glsl.NonFinite Glsl.Term) :
    Blames places (Emission.literal path outcome) := by
  cases outcome with
  | ok t => exact .pure t
  | error e => exact .fail place rfl

end Blames

end Registry

open Registry (Blames)

namespace Op

/-- The indices of the operands that the code of an operator is made from. An operator that joins
its operands, or hands them to a function or a constructor, takes all there are. -/
def indices (count : Nat) : Op → List Nat
  | .sub | .div | .greater | .greaterEq | .less | .lessEq | .equal | .notEqual => [0, 1]
  | .mod | .pow => [0, 1]
  | .round | .not => [0]
  | .between => [0, 1, 2]
  | .color => if count = 3 then [0, 1, 2] else [0, 1, 2, 3]
  | _ => List.range count

/-- An accepted call has the operands that its code is made from. -/
theorem Form.indices_lt {op : Op} {count : Nat} (h : op.Form count) :
    ∀ i ∈ op.indices count, i < count := by
  cases h with
  | chain joined many exact_two =>
    cases op with
    | mul | add | all | any => simp [indices]
    | sub | div | greater | greaterEq | less | lessEq | equal | notEqual =>
      obtain rfl := exact_two.resolve_left (by decide)
      decide
    | _ => cases joined
  | function called admitted =>
    cases op with
    | mod | pow =>
      obtain rfl := eq_of_admits admitted rfl
      decide
    | clamp | abs | floor | ceil | sin | cos | sqrt | atan => simp [indices]
    | _ => cases called
  | round | not | between | rgb | rgba => decide
  | array => simp [indices]

end Op

/-- The code of an operator needs its operands at these indices, and no others. -/
theorem Glsl.callTerm_missing_iff {op : Op} (valid : op ∈ Op.valid) (ts : List Term) :
    callTerm op ts = .error (.missingOperands op) ↔ ∃ i ∈ op.indices ts.length, ts.length ≤ i := by
  cases op with
  | invalid => simp [Op.valid] at valid
  | mul | add | all | any | clamp | abs | floor | ceil | sin | cos | sqrt | atan | array =>
    simp [callTerm, Op.indices]
  | sub | div | greater | greaterEq | less | lessEq | equal | notEqual | mod | pow =>
    rcases ts with _ | ⟨x, _ | ⟨y, rest⟩⟩
    · simp [callTerm, Op.indices]
    · simp [callTerm, Op.indices]
    · simp [callTerm, Op.indices]
  | round | not =>
    rcases ts with _ | ⟨x, rest⟩
    · simp [callTerm, Op.indices]
    · simp [callTerm, Op.indices]
  | between =>
    rcases ts with _ | ⟨x, _ | ⟨y, _ | ⟨z, rest⟩⟩⟩
    · simp [callTerm, Op.indices]
    · simp [callTerm, Op.indices]
    · simp [callTerm, Op.indices]
    · simp [callTerm, Op.indices]
  | color =>
    rcases ts with _ | ⟨r, _ | ⟨g, _ | ⟨b, _ | ⟨alpha, rest⟩⟩⟩⟩
    · simp [callTerm, Op.indices]
    · simp [callTerm, Op.indices]
    · simp [callTerm, Op.indices]
    · simp [callTerm, Op.indices]
    · simp [callTerm, Op.indices]

namespace Expr

/-- Whether all operands, stops, outputs and labels that the code of a node is made from are there:
the operands at the indices of its operator, a first stop to start from, and one output for each
stop and each label. -/
def InRange : Expr → Prop
  | .call _ op args _ => ∀ i ∈ op.indices args.length, i < args.length
  | .interpolate _ _ _ stops spare _ => stops ≠ [] ∧ spare = []
  | .select _ _ _ spare _ _ => spare = []
  | _ => True

theorem WellTyped.inRange {sizes : Nat → Prop} {e : Expr} (h : e.WellTyped sizes) : e.InRange := by
  cases h with
  | call _ _ accepts =>
    have hform := accepts.form
    rw [List.length_map] at hform
    exact hform.indices_lt
  | interpolate _ _ _ count =>
    refine ⟨?_, rfl⟩
    rintro rfl
    simp at count
  | select => rfl
  | _ => trivial

/-- Whether a node of the expression stands at the place. -/
def HasNodeAt (e : Expr) (place : Path) : Prop := ∃ n ∈ e.nodes, n.source = place

theorem hasNodeAt_self (e : Expr) : e.HasNodeAt e.source := ⟨e, mem_nodes_self e, rfl⟩

theorem hasNodeAt_of_part {e x : Expr} (hx : x ∈ e.parts) (place : Path) (h : x.HasNodeAt place) :
    e.HasNodeAt place := by
  obtain ⟨n, hn, rfl⟩ := h
  exact ⟨n, mem_nodes.mpr (Or.inr ⟨x, hx, hn⟩), rfl⟩

end Expr

namespace Emission

variable {stage : Stage} {places : Path → Prop}

theorem length_emitList {es : List Expr} {ts : List Glsl.Term} {r r' : Registry}
    (h : (emitList stage es).run.run r = (.ok ts, r')) : ts.length = es.length := by
  induction es generalizing ts r with
  | nil =>
    cases h
    rfl
  | cons e es ih =>
    rcases Registry.run_bind_cases h with ⟨i, -, hi⟩ | ⟨t, r₁, -, h⟩
    · cases hi
    · rcases Registry.run_bind_cases h with ⟨i, -, hi⟩ | ⟨us, r₂, hrest, hpure⟩
      · cases hi
      · cases hpure
        rw [List.length_cons, List.length_cons, ih hrest]

theorem length_emitPairs {ps : List (Expr × Expr)} {ts : List (Glsl.Term × Glsl.Term)}
    {r r' : Registry} (h : (emitPairs stage ps).run.run r = (.ok ts, r')) :
    ts.length = ps.length := by
  induction ps generalizing ts r with
  | nil =>
    cases h
    rfl
  | cons p ps ih =>
    rcases Registry.run_bind_cases h with ⟨i, -, hi⟩ | ⟨t, r₁, -, h⟩
    · cases hi
    · rcases Registry.run_bind_cases h with ⟨i, -, hi⟩ | ⟨u, r₂, -, h⟩
      · cases hi
      · rcases Registry.run_bind_cases h with ⟨i, -, hi⟩ | ⟨us, r₃, hrest, hpure⟩
        · cases hi
        · cases hpure
          rw [List.length_cons, List.length_cons, ih hrest]

theorem blames_emitList {es : List Expr} (hes : ∀ x ∈ es, Blames places (emit stage x)) :
    Blames places (emitList stage es) := by
  induction es with
  | nil => exact .pure []
  | cons e es ih =>
    obtain ⟨he, hes⟩ := List.forall_mem_cons.mp hes
    exact he.bind fun _ => (ih hes).bind fun _ => .pure _

theorem blames_emitPairs {ps : List (Expr × Expr)}
    (hps : ∀ x ∈ laidOut ps, Blames places (emit stage x)) :
    Blames places (emitPairs stage ps) := by
  induction ps with
  | nil => exact .pure []
  | cons p ps ih =>
    obtain ⟨ha, hrest⟩ := List.forall_mem_cons.mp hps
    obtain ⟨hb, hps⟩ := List.forall_mem_cons.mp hrest
    exact ha.bind fun _ => hb.bind fun _ => (ih hps).bind fun _ => .pure _

theorem blames_emitAlternatives {condition : Glsl.Term → Glsl.Term} {fallback : Glsl.Term}
    {ps : List (Expr × Expr)} (hps : ∀ x ∈ laidOut ps, Blames places (emit stage x)) :
    Blames places (emitAlternatives stage condition fallback ps) := by
  induction ps with
  | nil => exact .pure _
  | cons p ps ih =>
    obtain ⟨ha, hrest⟩ := List.forall_mem_cons.mp hps
    obtain ⟨hb, hps⟩ := List.forall_mem_cons.mp hrest
    exact (ih hps).bind fun _ => ha.bind fun _ => hb.bind fun _ => .pure _

theorem blames_emitGet {path : Path} (place : places path) (name : String) (type : Ty) :
    Blames places (emitGet stage path name type) := by
  refine (Blames.property place name type stage).bind fun ident => ?_
  split
  · exact (Blames.update _).bind fun _ => .pure _
  · exact .pure _

theorem blames_emitVar {path : Path} (place : places path) (name : String) (type : Ty) :
    Blames places (emitVar stage path name type) := by
  refine (Blames.styleVariable place name type).bind fun ident => ?_
  split
  · exact (Blames.update _).bind fun _ => .pure _
  · exact .pure _

/-- An operator finds its operands. -/
theorem blames_emit_call {path : Path} {op : Op} {args : List Expr} {type : Ty}
    (hform : op.Form args.length) (hargs : ∀ x ∈ args, Blames places (emit stage x)) :
    Blames places (emit stage (.call path op args type)) := by
  refine (blames_emitList hargs).bindRan fun ts r r' hrun => ?_
  rw [← length_emitList hrun] at hform
  obtain ⟨t, ht⟩ := Glsl.exists_callTerm hform
  rw [ht]
  exact .pure t

/-- An interpolation finds its first stop. -/
theorem blames_emit_interpolate {path : Path} {exponent : Double} {input : Expr}
    {stops : List (Expr × Expr)} {spare : List Expr} {type : Ty} (place : places path)
    (hstops : stops ≠ []) (hinput : Blames places (emit stage input))
    (hparts : ∀ x ∈ laidOut stops, Blames places (emit stage x)) :
    Blames places (emit stage (.interpolate path exponent input stops spare type)) := by
  refine (Blames.literal place _).bind fun _ => hinput.bind fun _ => ?_
  refine (blames_emitPairs hparts).bindRan fun ts r r' hrun => ?_
  cases ts with
  | nil => exact absurd (List.length_eq_zero_iff.mp (length_emitPairs hrun).symm) hstops
  | cons t ts => exact .pure _

/-- An emission of a part that blames nodes of the part blames nodes of the whole. -/
theorem blames_part {e x : Expr} (hx : x ∈ e.parts) (h : Blames x.HasNodeAt (emit stage x)) :
    Blames e.HasNodeAt (emit stage x) := h.mono (Expr.hasNodeAt_of_part hx)

end Emission

open Emission in
/-- Emission blames the style, at a node of the expression. -/
theorem Expr.WellTyped.blames_emit {sizes : Nat → Prop} {e : Expr} (h : e.WellTyped sizes)
    (stage : Stage) : Blames e.HasNodeAt (Emission.emit stage e) := by
  have hparts : ∀ x ∈ e.parts, Blames e.HasNodeAt (Emission.emit stage x) := fun x hx =>
    blames_part hx ((h.of_parts x hx).blames_emit stage)
  have hplace := e.hasNodeAt_self
  cases h with
  | number | color | array => exact .literal hplace _
  | bool source b => exact .pure _
  | text source s =>
    exact ((Blames.update _).bind fun _ => Blames.get.bind fun _ => .pure _).bind fun _ =>
      .literal hplace _
  | get source name => exact blames_emitGet hplace name _
  | var source name => exact blames_emitVar hplace name _
  | builtin source known =>
    simp only [Node.builtins, List.mem_cons, List.not_mem_nil, or_false] at known
    rcases known with rfl | rfl | rfl <;> exact .pure _
  | call source _ accepts =>
    have hform := accepts.form
    rw [List.length_map] at hform
    exact blames_emit_call hform hparts
  | interpolate source exponent _ count =>
    obtain ⟨hinput, hstops⟩ := List.forall_mem_cons.mp hparts
    refine blames_emit_interpolate hplace ?_ hinput hstops
    rintro rfl
    simp at count
  | select =>
    obtain ⟨hinput, hrest⟩ := List.forall_mem_cons.mp hparts
    obtain ⟨halternatives, hfallback⟩ := List.forall_mem_append.mp hrest
    exact hinput.bind fun _ => (hfallback _ List.mem_cons_self).bind fun _ =>
      blames_emitAlternatives halternatives
  | cases =>
    obtain ⟨halternatives, hfallback⟩ := List.forall_mem_append.mp hparts
    exact (hfallback _ List.mem_cons_self).bind fun _ => blames_emitAlternatives halternatives
  | widen => exact (hparts _ List.mem_cons_self).bind fun _ => .pure _
termination_by sizeOf e
decreasing_by exact sizeOf_lt_of_mem_parts hx

theorem buildExpr_typed {scope : Scope} {path : Path} {raw : Value} {expected : TypeSet} {e : Expr}
    (h : buildExpr scope path raw expected = .ok e) : e.WellTyped fun _ => True := by
  have hsound : expected.Accepts e.type ∧ e.WellTyped fun _ => True :=
    buildExpr_sound (fun _ _ => trivial) trivial h
  exact hsound.2

theorem buildOfType_typed {vars : OrderedMap String Value} {path : Path} {raw : Value} {want : Ty}
    {e : Expr} (h : buildOfType vars path raw want = .ok e) : e.WellTyped fun _ => True := by
  have hsound : e.type = want ∧ e.WellTyped fun _ => True :=
    buildOfType_sound (fun _ _ => trivial) (fun _ _ => trivial) h
  exact hsound.2

/-- What is wrong with an expression and its emission is reported at elements of the raw value. -/
structure Builder.Places (b : Builder) (path : Path) (raw : Value)
    (answer : Option Expr × Builder) : Prop where
  built : ∃ added, answer.2.issues = b.issues ++ added ∧ ∀ i ∈ added, PlaceIn path raw i.path
  emitted {e : Expr} (expr : answer.1 = some e) {stage : Stage} {r r' : Registry} {i : Issue}
    (refused : (emit stage e).run.run r = (.error i, r')) : PlaceIn path raw i.path

theorem Builder.places_collect (b : Builder) {path : Path} {raw : Value} {outcome : Checked Expr}
    (blames : outcome.Blames (PlaceIn path raw))
    (renders : ∀ e, outcome = .ok e → e.Renders path raw)
    (typed : ∀ e, outcome = .ok e → e.WellTyped fun _ => True) :
    b.Places path raw (b.collect outcome) := by
  cases outcome with
  | error issues => exact ⟨⟨issues, rfl, fun i hi => (blames i hi).1⟩, nofun⟩
  | ok e =>
    refine ⟨⟨[], (List.append_nil _).symm, List.forall_mem_nil _⟩, ?_⟩
    rintro _ ⟨⟩ stage r r' i refused
    obtain ⟨⟨n, hn, hplace⟩, -⟩ := (typed e rfl).blames_emit stage r i r' refused
    obtain ⟨indices, v, hfollow, hsource, -⟩ := (renders e rfl).nodes n hn
    exact ⟨indices, v, hfollow, hplace.symm.trans hsource⟩

/-- Every issue points at an element that exists: the raw value itself, or what indices lead to
from it through nested arrays. That holds for what building adds, and for what the emission of the
expression that is built is refused for, with any registry. -/
theorem Builder.build_places (b : Builder) (path : Path) (raw : Value) :
    (∀ expected, b.Places path raw (b.build path raw expected)) ∧
      ∀ want, b.Places path raw (b.buildType path raw want) := by
  constructor
  · intro expected
    exact b.places_collect (blames_buildExpr _ path raw expected) (fun _ => buildExpr_renders)
      fun _ => buildExpr_typed
  · intro want
    exact b.places_collect (blames_buildOfType b.vars path raw want)
      (fun _ => buildOfType_renders) fun _ => buildOfType_typed

end ShaderStyle
