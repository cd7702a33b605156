import ShaderStyle.Proofs.Emission.Tree
import ShaderStyle.Proofs.Glsl.Checking
import ShaderStyle.Proofs.Typing.Soundness

/-! The nesting of a well-typed expression has the type that the expression has in shaders. -/
namespace ShaderStyle

open Glsl (Tree BinaryOp ValueType Environment)

/-- The type of a value inside an expression. -/
def Ty.valueType : Ty → ValueType
  | .boolean => .bool
  | .color => .vec 4
  | .array size => .vec size
  | _ => .float

/-- The type of a value in an attribute or a uniform. -/
def Ty.storedType : Ty → ValueType
  | .color => .vec 2
  | .array size => .vec size
  | _ => .float

/-- The type of a value that the vertex shader hands on, where colors are no longer packed. -/
def Ty.passedType : Ty → ValueType
  | .color => .vec 4
  | .array size => .vec size
  | _ => .float

/-- An environment in which a reference can be used. -/
def Reference.Known (stage : Stage) (env : Environment) : Reference → Prop
  | .property _ name type =>
    match stage with
    | .vertex => env.name? (propertyIdent name .vertex) = some type.storedType ∧
        (type = .color → env.unpacks = true)
    | .fragment => env.name? (propertyIdent name .fragment) = some type.passedType
  | .styleVariable _ name type =>
    env.name? (Glsl.uniformName name) = some type.storedType ∧ (type = .color → env.unpacks = true)
  | .text _ _ | .number _ _ => True

/-- The numbers that the renderer provides are uniforms. -/
def Glsl.Environment.Provides (env : Environment) : Prop :=
  env.name? "u_time" = some .float ∧ env.name? "u_zoom" = some .float ∧
    env.name? "u_resolution" = some .float

namespace Glsl.Tree

variable {env : Environment}

theorem type?_unpacked {ident : String} (h : env.name? ident = some (.vec 2))
    (hunpacks : env.unpacks = true) : (unpacked ident).type? env = some (.vec 4) := by
  have hargs : types? env [name ident] = some [.vec 2] := types?_cons h rfl
  rw [unpacked, type?_call _ hargs]
  change (if env.unpacks = true then some (ValueType.vec 4) else none) = _
  rw [if_pos hunpacks]

theorem type?_stored {ident : String} {type : Ty} {t : ValueType}
    (h : env.name? ident = some t) (hboolean : type = .boolean → t = .float)
    (hother : type ≠ .boolean → t = type.valueType) :
    (stored ident type).type? env = some type.valueType := by
  by_cases htype : type = .boolean
  · subst htype
    obtain rfl := hboolean rfl
    have hname : (name ident).type? env = some .float := h
    change (binary .greater (name ident) (literal (.finite 0))).type? env = _
    rw [type?_binary _ hname (type?_literal _)]
    rfl
  · have hname : (stored ident type).type? env = some t := by
      cases type with
      | boolean => exact absurd rfl htype
      | _ => exact h
    rw [hname, hother htype]

/-- A vector of numbers. -/
theorem type?_vector {xs : List Tree} (hsize : IsVectorSize xs.length)
    (h : ∀ x ∈ xs, x.type? env = some .float) :
    (vector xs).type? env = some (.vec xs.length) := by
  have hargs := types?_replicate h
  rw [vector, type?_call _ hargs]
  obtain ⟨hlow, hhigh⟩ := hsize
  obtain hn | hn | hn : xs.length = 2 ∨ xs.length = 3 ∨ xs.length = 4 := by omega
  all_goals
    rw [hn]
    rfl

theorem type?_literals {xs : List Double} (hsize : IsVectorSize xs.length) :
    (vector (xs.map literal)).type? env = some (.vec xs.length) := by
  rw [← xs.length_map literal] at hsize ⊢
  refine type?_vector hsize fun x hx => ?_
  obtain ⟨y, -, rfl⟩ := List.mem_map.mp hx
  exact type?_literal y

theorem type?_widened {type : Ty} {x : Tree} (sized : type.Sized IsVectorSize)
    (hvector : type.isVector = true) (h : x.type? env = some .float) :
    (call ("vec" ++ toString type.components) [x]).type? env = some type.valueType := by
  have hargs : types? env [x] = some [.float] := types?_cons h rfl
  rw [type?_call _ hargs]
  cases type with
  | color => rfl
  | array n =>
    obtain ⟨hlow, hhigh⟩ : IsVectorSize n := sized
    obtain rfl | rfl | rfl : n = 2 ∨ n = 3 ∨ n = 4 := by omega
    all_goals rfl
  | _ => cases hvector

/-- Channels from 0 to 255, as an opaque color. -/
theorem type?_rgb {r g b : Tree} (hr : r.type? env = some .float) (hg : g.type? env = some .float)
    (hb : b.type? env = some .float) :
    (call "vec4" [binary .div (call "vec3" [r, g, b]) (literal (.finite 255)),
      literal (.finite 1)]).type? env = some (.vec 4) := by
  have hchannels : types? env [r, g, b] = some [.float, .float, .float] :=
    types?_cons hr (types?_cons hg (types?_cons hb rfl))
  have hscaled : (binary .div (call "vec3" [r, g, b]) (literal (.finite 255))).type? env =
      some (.vec 3) := type?_binary .div (type?_call "vec3" hchannels) (type?_literal _)
  have hparts : types? env [_, literal (.finite 1)] = some [.vec 3, .float] :=
    types?_cons hscaled (types?_cons (type?_literal _) rfl)
  exact type?_call "vec4" hparts

/-- Numbers mixed with values of one type make values of that type, if there is one. -/
theorem type?_arithmetic {op : BinaryOp} {type : ValueType} {x : Tree} {xs : List Tree}
    {t : ValueType} (hop : ∀ u v, op.type? u v = u.arithmetic? v) (htype : type ≠ .bool)
    (hx : x.type? env = some t) (ht : t = .float ∨ t = type)
    (hxs : ∀ y ∈ xs, y.type? env = some .float ∨ y.type? env = some type)
    (hsome : t = type ∨ ∃ y ∈ xs, y.type? env = some type) :
    (xs.foldl (binary op) x).type? env = some type := by
  have hself : type.arithmetic? type = some type := by
    cases type <;> simp_all [ValueType.arithmetic?]
  have hleft : ValueType.arithmetic? .float type = some type := by
    cases type <;> simp_all [ValueType.arithmetic?]
  have hright : type.arithmetic? .float = some type := by
    cases type <;> simp_all [ValueType.arithmetic?]
  induction xs generalizing x t with
  | nil =>
    rcases hsome with rfl | ⟨y, hy, -⟩
    · exact hx
    · cases hy
  | cons y ys ih =>
    rw [List.foldl_cons]
    have hys : ∀ z ∈ ys, z.type? env = some .float ∨ z.type? env = some type :=
      fun z hz => hxs z (by simp [hz])
    rcases hxs y (by simp) with hy | hy
    · have hstep := type?_binary op hx hy
      rw [hop] at hstep
      rcases ht with rfl | rfl
      · refine ih hstep (Or.inl rfl) hys ?_
        rcases hsome with h | ⟨z, hz, htz⟩
        · exact Or.inl h
        · rcases List.mem_cons.mp hz with rfl | hz
          · rw [hy] at htz
            exact Or.inl (Option.some.inj htz)
          · exact Or.inr ⟨z, hz, htz⟩
      · rw [hright] at hstep
        exact ih hstep (Or.inr rfl) hys (Or.inl rfl)
    · have hstep := type?_binary op hx hy
      rw [hop] at hstep
      have hresult : t.arithmetic? type = some type := by
        rcases ht with rfl | rfl
        · exact hleft
        · exact hself
      rw [hresult] at hstep
      exact ih hstep (Or.inr rfl) hys (Or.inl rfl)

theorem type?_logical {op : BinaryOp} {x : Tree} {xs : List Tree}
    (hop : op.type? .bool .bool = some .bool) (hx : x.type? env = some .bool)
    (hxs : ∀ y ∈ xs, y.type? env = some .bool) :
    (xs.foldl (binary op) x).type? env = some .bool := by
  induction xs generalizing x with
  | nil => exact hx
  | cons y ys ih =>
    rw [List.foldl_cons]
    refine ih ?_ fun z hz => hxs z (by simp [hz])
    rw [type?_binary op hx (hxs y (by simp)), hop]

theorem type?_mix {type : ValueType} {input exponent below start stop output : Tree}
    (hinput : input.type? env = some .float) (hexponent : exponent.type? env = some .float)
    (hstart : start.type? env = some .float) (hstop : stop.type? env = some .float)
    (hbelow : below.type? env = some type) (houtput : output.type? env = some type)
    (htype : type ≠ .bool) :
    (mix input exponent below start stop output).type? env = some type := by
  have hrise : (binary .sub input start).type? env = some .float := type?_binary .sub hinput hstart
  have hspan : (binary .sub stop start).type? env = some .float := type?_binary .sub hstop hstart
  have hposition : (binary .div _ _).type? env = some .float := type?_binary .div hrise hspan
  have hlimits : types? env [_, literal (.finite 0), literal (.finite 1)] =
      some [.float, .float, .float] :=
    types?_cons hposition (types?_cons (type?_literal _) (types?_cons (type?_literal _) rfl))
  have hclamp : (call "clamp" _).type? env = some .float := type?_call "clamp" hlimits
  have hpowers : types? env [_, exponent] = some [.float, .float] :=
    types?_cons hclamp (types?_cons hexponent rfl)
  have hpow : (call "pow" _).type? env = some .float := type?_call "pow" hpowers
  have hargs : types? env [below, output, _] = some [type, type, .float] :=
    types?_cons hbelow (types?_cons houtput (types?_cons hpow rfl))
  rw [mix, type?_call "mix" hargs]
  exact if_pos ⟨rfl, htype⟩

theorem type?_mixes {type : ValueType} {input exponent below start : Tree}
    {rest : List (Tree × Tree)} (hinput : input.type? env = some .float)
    (hexponent : exponent.type? env = some .float) (hstart : start.type? env = some .float)
    (hbelow : below.type? env = some type) (htype : type ≠ .bool)
    (hstops : ∀ p ∈ rest, p.1.type? env = some .float)
    (houtputs : ∀ p ∈ rest, p.2.type? env = some type) :
    (mixes input exponent below start rest).type? env = some type := by
  induction rest generalizing below start with
  | nil => exact hbelow
  | cons p rest ih =>
    have hstop := hstops p (by simp)
    have hmix := type?_mix hinput hexponent hstart hstop hbelow (houtputs p (by simp)) htype
    exact ih hstop hmix (fun q hq => hstops q (by simp [hq]))
      fun q hq => houtputs q (by simp [hq])

theorem type?_alternatives {type : ValueType} {condition : Tree → Tree} {fallback : Tree}
    {ps : List (Tree × Tree)} (hfallback : fallback.type? env = some type)
    (hconditions : ∀ p ∈ ps, (condition p.1).type? env = some .bool)
    (houtputs : ∀ p ∈ ps, p.2.type? env = some type) :
    (alternatives condition fallback ps).type? env = some type := by
  induction ps with
  | nil => exact hfallback
  | cons p ps ih =>
    refine type?_choose (hconditions p (by simp)) (houtputs p (by simp)) ?_
    exact ih (fun q hq => hconditions q (by simp [hq])) fun q hq => houtputs q (by simp [hq])

end Glsl.Tree

namespace Op

theorem Accepts.fixed {op : Op} {operands : List Ty} {type : Ty} {k : Kind}
    (h : op.Accepts operands type) (hk : op.operandKind? = some k) :
    (∀ t ∈ operands, t.kind? = some k) ∧ type = op.resultType operands.length := by
  obtain ⟨-, -, hrest⟩ := h
  rw [hk] at hrest
  exact hrest

theorem Accepts.arithmetic {op : Op} {operands : List Ty} {type : Ty}
    (h : op.Accepts operands type) (hop : op.isArithmetic = true) :
    (∀ t ∈ operands, t = .number ∨ t = type) ∧ (type = .number ∨ type.isVector = true) ∧
      (type ≠ .number → type ∈ operands) := by
  obtain ⟨-, -, hrest⟩ := h
  rw [Node.operandKind?_of_isArithmetic hop] at hrest
  simpa [hop] using hrest

theorem Accepts.equality {op : Op} {operands : List Ty} {type : Ty}
    (h : op.Accepts operands type) (hop : op = .equal ∨ op = .notEqual) :
    (∀ t ∈ operands, ∀ u ∈ operands, t = u) ∧ type = .boolean := by
  obtain ⟨-, -, hrest⟩ := h
  rcases hop with rfl | rfl <;> exact hrest

variable {env : Environment} {args : List Expr} {f : Expr → Tree} {type : Ty}

/-- Operands of a fixed kind, as trees of one type. -/
theorem Accepts.operands {op : Op} {k : Kind} {t : ValueType}
    (accepts : op.Accepts (args.map Expr.type) type)
    (h : ∀ e ∈ args, (f e).type? env = some e.type.valueType) (hk : op.operandKind? = some k)
    (ht : ∀ u : Ty, u.kind? = some k → u.valueType = t) :
    (∀ x ∈ args.map f, x.type? env = some t) ∧ type = op.resultType args.length := by
  obtain ⟨hkind, htype⟩ := accepts.fixed hk
  rw [List.length_map] at htype
  refine ⟨fun x hx => ?_, htype⟩
  obtain ⟨e, he, rfl⟩ := List.mem_map.mp hx
  rw [h e he, ht e.type (hkind e.type (List.mem_map_of_mem he))]

theorem valueType_of_number {u : Ty} (h : u.kind? = some .number) : u.valueType = .float := by
  rw [Ty.eq_number.mp h]
  rfl

theorem valueType_of_boolean {u : Ty} (h : u.kind? = some .boolean) : u.valueType = .bool := by
  rw [Ty.eq_boolean.mp h]
  rfl

theorem type?_tree_arithmetic {op : Op} {b : BinaryOp}
    (accepts : op.Accepts (args.map Expr.type) type) (hne : args ≠ [])
    (h : ∀ e ∈ args, (f e).type? env = some e.type.valueType) (hop : op.isArithmetic = true)
    (hb : ∀ u v, b.type? u v = u.arithmetic? v) :
    (Tree.chain b (args.map f)).type? env = some type.valueType := by
  obtain ⟨hoperands, hmixable, hmember⟩ := accepts.arithmetic hop
  have hbool : type.valueType ≠ .bool := by
    rcases hmixable with rfl | hvector
    · decide
    · cases type <;> simp_all [Ty.isVector, Ty.valueType]
  have htypes : ∀ e ∈ args,
      (f e).type? env = some .float ∨ (f e).type? env = some type.valueType := by
    intro e he
    rcases hoperands e.type (List.mem_map_of_mem he) with hnumber | hsame
    · left
      rw [h e he, hnumber]
      rfl
    · right
      rw [h e he, hsame]
  have hsome : ∃ e ∈ args, (f e).type? env = some type.valueType := by
    by_cases hnumber : type = .number
    · obtain ⟨e, rest, rfl⟩ := List.exists_cons_of_ne_nil hne
      refine ⟨e, by simp, ?_⟩
      rcases htypes e (by simp) with hfloat | hsame
      · rw [hfloat, hnumber]
        rfl
      · exact hsame
    · obtain ⟨e, he, htype⟩ := List.mem_map.mp (hmember hnumber)
      exact ⟨e, he, by rw [h e he, htype]⟩
  obtain ⟨e, rest, rfl⟩ := List.exists_cons_of_ne_nil hne
  have hrest : ∀ y ∈ rest.map f, y.type? env = some .float ∨ y.type? env = some type.valueType := by
    intro y hy
    obtain ⟨e', he', rfl⟩ := List.mem_map.mp hy
    exact htypes e' (by simp [he'])
  obtain ⟨t, ht, hcases⟩ : ∃ t, (f e).type? env = some t ∧ (t = .float ∨ t = type.valueType) := by
    rcases htypes e (by simp) with hfloat | hsame
    · exact ⟨_, hfloat, Or.inl rfl⟩
    · exact ⟨_, hsame, Or.inr rfl⟩
  refine Tree.type?_arithmetic hb hbool ht hcases hrest ?_
  obtain ⟨e', he', htype'⟩ := hsome
  rcases List.mem_cons.mp he' with rfl | he'
  · rw [ht] at htype'
    exact Or.inl (Option.some.inj htype')
  · exact Or.inr ⟨f e', List.mem_map_of_mem he', htype'⟩

theorem type?_tree_chain {op : Op} {b : BinaryOp} (joined : op.binary? = some b)
    (accepts : op.Accepts (args.map Expr.type) type) (many : 2 ≤ args.length)
    (exact_two : op ∈ [mul, add, all, any] ∨ args.length = 2)
    (h : ∀ e ∈ args, (f e).type? env = some e.type.valueType) :
    (Tree.chain b (args.map f)).type? env = some type.valueType := by
  have hne : args ≠ [] := by
    rintro rfl
    exact absurd many (by decide)
  cases op with
  | mul | add | sub | div =>
    cases joined
    exact type?_tree_arithmetic accepts hne h rfl fun u v => rfl
  | all | any =>
    cases joined
    obtain ⟨hoperands, rfl⟩ := accepts.operands h rfl fun u => valueType_of_boolean
    obtain ⟨e, rest, rfl⟩ := List.exists_cons_of_ne_nil hne
    exact Tree.type?_logical rfl (hoperands (f e) (by simp)) fun y hy => hoperands y (by
      rw [List.map_cons]
      exact List.mem_cons_of_mem _ hy)
  | greater | greaterEq | less | lessEq =>
    cases joined
    have hlength : args.length = 2 := by simpa using exact_two
    obtain ⟨hoperands, rfl⟩ := accepts.operands h rfl fun u => valueType_of_number
    obtain ⟨x, y, rfl⟩ := List.length_eq_two.mp hlength
    exact Tree.type?_binary _ (hoperands (f x) (by simp)) (hoperands (f y) (by simp))
  | equal | notEqual =>
    cases joined
    have hlength : args.length = 2 := by simpa using exact_two
    obtain ⟨hequal, rfl⟩ := accepts.equality (by simp)
    obtain ⟨x, y, rfl⟩ := List.length_eq_two.mp hlength
    have htype : x.type = y.type := hequal x.type (by simp) y.type (by simp)
    refine (Tree.type?_binary _ (h x (by simp)) (h y (by simp))).trans ?_
    simp [BinaryOp.type?, htype, Ty.valueType]
  | _ => cases joined

theorem type?_tree_function {op : Op} {g : String} (called : op.function? = some g)
    (admitted : Node.Arity.admits op.arity args.length = true)
    (accepts : op.Accepts (args.map Expr.type) type)
    (h : ∀ e ∈ args, (f e).type? env = some e.type.valueType) :
    (Tree.call g (args.map f)).type? env = some type.valueType := by
  have hkind : op.operandKind? = some .number := by cases op <;> cases called <;> rfl
  have hresult : op.resultType args.length = .number := by cases op <;> cases called <;> rfl
  obtain ⟨hoperands, rfl⟩ := accepts.operands h hkind fun u => valueType_of_number
  have hlow := min_le_of_admits admitted
  rw [hresult, Tree.type?_call g (Tree.types?_replicate hoperands), List.length_map]
  cases op with
  | mod | pow =>
    cases called
    rw [eq_of_admits admitted rfl]
    rfl
  | clamp =>
    cases called
    rw [eq_of_admits admitted rfl]
    rfl
  | abs | floor | ceil | sin | cos | sqrt =>
    cases called
    rw [eq_of_admits admitted rfl]
    rfl
  | atan =>
    cases called
    have hlow : 1 ≤ args.length := min_le_of_admits admitted
    have hhigh : args.length ≤ 2 := le_max_of_admits admitted rfl
    obtain hn | hn : args.length = 1 ∨ args.length = 2 := by omega
    · rw [hn]
      rfl
    · rw [hn]
      rfl
  | _ => cases called

/-- An accepted call has the type of the call. -/
theorem type?_tree {op : Op} (accepts : op.Accepts (args.map Expr.type) type)
    (h : ∀ e ∈ args, (f e).type? env = some e.type.valueType) :
    (op.tree (args.map f)).type? env = some type.valueType := by
  have hform := accepts.form
  rw [List.length_map] at hform
  generalize hn : args.length = n at hform
  cases hform with
  | @chain op b n joined many exact_two =>
    rw [tree_chain joined]
    exact type?_tree_chain joined accepts (hn ▸ many) (hn ▸ exact_two) h
  | @function op g n called admitted =>
    rw [tree_function called]
    exact type?_tree_function called (hn ▸ admitted) accepts h
  | round =>
    obtain ⟨hoperands, rfl⟩ := accepts.operands h rfl fun u => valueType_of_number
    obtain ⟨x, rfl⟩ := List.length_eq_one_iff.mp hn
    have hsum := Tree.type?_binary .add (hoperands (f x) (by simp))
      (Tree.type?_literal (.finite (1 / 2)))
    have hargs : Tree.types? env [_] = some [.float] := Tree.types?_cons hsum rfl
    exact Tree.type?_call "floor" hargs
  | not =>
    obtain ⟨hoperands, rfl⟩ := accepts.operands h rfl fun u => valueType_of_boolean
    obtain ⟨x, rfl⟩ := List.length_eq_one_iff.mp hn
    change ((f x).not).type? env = _
    rw [Tree.type?, hoperands (f x) (by simp)]
    rfl
  | between =>
    obtain ⟨hoperands, rfl⟩ := accepts.operands h rfl fun u => valueType_of_number
    obtain ⟨x, low, high, rfl⟩ := List.length_eq_three.mp hn
    have hlow := Tree.type?_binary .greaterEq (hoperands (f x) (by simp))
      (hoperands (f low) (by simp))
    have hhigh := Tree.type?_binary .lessEq (hoperands (f x) (by simp))
      (hoperands (f high) (by simp))
    exact Tree.type?_binary .and hlow hhigh
  | array sized =>
    obtain ⟨hoperands, rfl⟩ := accepts.operands h rfl fun u => valueType_of_number
    have hvector := Tree.type?_vector (by rw [List.length_map, hn]; exact sized) hoperands
    rw [List.length_map] at hvector
    exact hvector
  | rgb =>
    obtain ⟨hoperands, rfl⟩ := accepts.operands h rfl fun u => valueType_of_number
    obtain ⟨r, g, b, rfl⟩ := List.length_eq_three.mp hn
    exact Tree.type?_rgb (hoperands (f r) (by simp)) (hoperands (f g) (by simp))
      (hoperands (f b) (by simp))
  | rgba =>
    obtain ⟨hoperands, rfl⟩ := accepts.operands h rfl fun u => valueType_of_number
    obtain ⟨r, g, b, a, rfl⟩ := List.length_eq_four.mp hn
    have hrgb := Tree.type?_rgb (hoperands (f r) (by simp)) (hoperands (f g) (by simp))
      (hoperands (f b) (by simp))
    exact Tree.type?_binary .mul hrgb (hoperands (f a) (by simp))

end Op

namespace Expr

variable {stage : Stage} {c : Categories} {env : Environment}

theorem type?_tree_get {path : Path} {name : String} {type : Ty}
    (known : (Reference.property path name type).Known stage env) :
    (tree stage c (.get path name type)).type? env = some type.valueType := by
  rw [tree]
  cases stage with
  | vertex =>
    obtain ⟨hname, hunpacks⟩ := known
    split
    · next hcolor =>
      obtain ⟨rfl, -⟩ := hcolor
      exact Tree.type?_unpacked hname (hunpacks rfl)
    · next hcolor =>
      refine Tree.type?_stored hname (fun h => by rw [h]; rfl) fun h => ?_
      cases type <;> first | rfl | exact absurd rfl h | exact absurd ⟨rfl, rfl⟩ hcolor
  | fragment =>
    rw [if_neg (by simp)]
    refine Tree.type?_stored known (fun h => by rw [h]; rfl) fun h => ?_
    cases type <;> first | rfl | exact absurd rfl h

theorem type?_tree_var {path : Path} {name : String} {type : Ty}
    (known : (Reference.styleVariable path name type).Known stage env) :
    (tree stage c (.var path name type)).type? env = some type.valueType := by
  obtain ⟨hname, hunpacks⟩ := known
  rw [tree]
  split
  · next hcolor =>
    subst hcolor
    exact Tree.type?_unpacked hname (hunpacks rfl)
  · next hcolor =>
    refine Tree.type?_stored hname (fun h => by rw [h]; rfl) fun h => ?_
    cases type <;> first | rfl | exact absurd rfl h | exact absurd rfl hcolor

/-- Where everything that it refers to is known, a well-typed expression has its type. -/
theorem WellTyped.type?_tree {e : Expr} (h : e.WellTyped IsVectorSize) (provides : env.Provides)
    (known : ∀ ref ∈ e.references, ref.Known stage env) :
    (e.tree stage c).type? env = some e.type.valueType := by
  induction h with
  | number path x => exact Tree.type?_literal x
  | bool path b => rfl
  | text path s => exact Tree.type?_literal _
  | color path rgba =>
    have hsize : IsVectorSize 4 := by decide
    exact Tree.type?_literals hsize
  | array path sized => exact Tree.type?_literals sized
  | @get path name type =>
    exact type?_tree_get (known (.property path name type) (by simp [references]))
  | @var path name type =>
    exact type?_tree_var (known (.styleVariable path name type) (by simp [references]))
  | @builtin path name builtin =>
    obtain ⟨htime, hzoom, hresolution⟩ := provides
    simp only [Node.builtins, List.mem_cons, List.not_mem_nil, or_false] at builtin
    rcases builtin with rfl | rfl | rfl
    · exact htime
    · exact hzoom
    · exact hresolution
  | @call path op args type sized accepts operands ih =>
    rw [tree, treeList_eq]
    apply Op.type?_tree accepts
    exact fun e he => ih e he fun ref href => known ref (mem_referencesList.mpr ⟨e, he, href⟩)
  | @interpolate path exponent input stops type sized count mixable input_type stop_type
      output_type _ _ _ ihi ihs iho =>
    have hinput := ihi fun ref href => known ref (by simp [references, href])
    rw [input_type] at hinput
    have hknown (p : Expr × Expr) (hp : p ∈ stops) (ref : Reference)
        (href : ref ∈ p.1.references ∨ ref ∈ p.2.references) : ref.Known stage env := by
      apply known ref
      simp only [references, List.mem_append, mem_referencesPairs]
      exact Or.inr (Or.inr ⟨p, hp, href⟩)
    have hstop (p : Expr × Expr) (hp : p ∈ stops) : (p.1.tree stage c).type? env = some .float := by
      rw [ihs p hp fun ref href => hknown p hp ref (Or.inl href), stop_type p hp]
      rfl
    have houtput (p : Expr × Expr) (hp : p ∈ stops) :
        (p.2.tree stage c).type? env = some type.valueType := by
      rw [iho p hp fun ref href => hknown p hp ref (Or.inr href), output_type p hp]
    have htype : type.valueType ≠ .bool := by
      rcases mixable with rfl | hvector
      · decide
      · cases type <;> simp_all [Ty.isVector, Ty.valueType]
    rw [tree, treePairs_eq]
    cases stops with
    | nil => exact absurd count (by decide)
    | cons p rest =>
      refine Tree.type?_mixes hinput (Tree.type?_literal exponent) (hstop p (by simp))
        (houtput p (by simp)) htype (fun q hq => ?_) fun q hq => ?_
      · obtain ⟨p', hp', rfl⟩ := List.mem_map.mp hq
        exact hstop p' (by simp [hp'])
      · obtain ⟨p', hp', rfl⟩ := List.mem_map.mp hq
        exact houtput p' (by simp [hp'])
  | @select path input fallback alternatives type label sized count _ input_type label_type
      output_type fallback_type _ _ _ _ ihi ihl iho ihf =>
    have hinput := ihi fun ref href => known ref (by simp [references, href])
    have hfallback := ihf fun ref href => known ref (by simp [references, href])
    rw [fallback_type] at hfallback
    rw [tree, treePairs_eq]
    refine Tree.type?_alternatives hfallback (fun q hq => ?_) fun q hq => ?_
    all_goals
      obtain ⟨p, hp, rfl⟩ := List.mem_map.mp hq
      have hknown (ref : Reference) (href : ref ∈ p.1.references ∨ ref ∈ p.2.references) :
          ref.Known stage env := by
        apply known ref
        simp only [references, List.mem_append, mem_referencesAlternatives]
        exact Or.inr (Or.inr ⟨p, hp, href⟩)
    · have hlabel := ihl p hp fun ref href => hknown ref (Or.inl href)
      rw [Tree.type?_binary .equal hinput hlabel, input_type, label_type p hp]
      exact if_pos rfl
    · rw [iho p hp fun ref href => hknown ref (Or.inr href), output_type p hp]
      rfl
  | @cases path fallback alternatives type sized count condition_type output_type fallback_type
      _ _ _ ihc iho ihf =>
    have hfallback := ihf fun ref href => known ref (by simp [references, href])
    rw [fallback_type] at hfallback
    rw [tree, treePairs_eq]
    refine Tree.type?_alternatives hfallback (fun q hq => ?_) fun q hq => ?_
    all_goals
      obtain ⟨p, hp, rfl⟩ := List.mem_map.mp hq
      have hknown (ref : Reference) (href : ref ∈ p.1.references ∨ ref ∈ p.2.references) :
          ref.Known stage env := by
        apply known ref
        simp only [references, List.mem_append, mem_referencesAlternatives]
        exact Or.inr ⟨p, hp, href⟩
    · have hcondition := ihc p hp fun ref href => hknown ref (Or.inl href)
      rw [condition_type p hp] at hcondition
      exact hcondition
    · rw [iho p hp fun ref href => hknown ref (Or.inr href), output_type p hp]
      rfl
  | @widen x type sized number vector typed ih =>
    have hx := ih known
    rw [number] at hx
    exact Tree.type?_widened sized vector hx

end Expr

end ShaderStyle
