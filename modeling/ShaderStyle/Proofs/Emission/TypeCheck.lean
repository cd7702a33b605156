import ShaderStyle.Proofs.Emission.Checking
import ShaderStyle.Proofs.Emission.Spelling
import ShaderStyle.Proofs.Registry.Declarations

/-! Emitted texts type-check against the declarations that their emission leaves in the shader. -/
namespace ShaderStyle

open Glsl (Tree ValueType topLevel)

theorem Glsl.ofName?_vector {n : Nat} (h : IsVectorSize n) :
    ValueType.ofName? ("vec" ++ toString n) = some (.vec n) := by
  obtain ⟨hlow, hhigh⟩ := h
  obtain rfl | rfl | rfl : n = 2 ∨ n = 3 ∨ n = 4 := by omega
  all_goals rfl

theorem Glsl.ofName?_storageTypeName {type : Ty} (sized : type.Sized IsVectorSize) :
    ValueType.ofName? (storageTypeName type) = some type.storedType := by
  cases type with
  | array n => exact ofName?_vector sized
  | _ => rfl

theorem Glsl.ofName?_typeName {type : Ty} (sized : type.Sized IsVectorSize) :
    ValueType.ofName? (typeName type) = some type.passedType := by
  cases type with
  | array n => exact ofName?_vector sized
  | _ => rfl

namespace Registry

variable {r : Registry}

theorem Declares.provides (hr : r.Declares) (stage : Stage) :
    (r.shader.environment stage).Provides := by
  have hfloat (ident : String) (h : ident ∈ Glsl.providedUniforms) :
      (r.shader.environment stage).name? ident = some .float :=
    Shader.environment_name? (hr.declared_provided stage h)
  exact ⟨hfloat _ (by decide), hfloat _ (by decide), hfloat _ (by decide)⟩

theorem Declares.name?_attribute (hr : r.Declares) {name : String} {type : Ty}
    (known : r.propertyType? name = some type) :
    (r.shader.environment .vertex).name? (Glsl.attributeName name) = some type.storedType := by
  rw [Shader.environment_name? (hr.declared_attribute known)]
  exact Glsl.ofName?_storageTypeName (hr.attributes.sized known)

/-- What was registered for an expression is known to the expressions of the stage. -/
theorem Declares.known (hr : r.Declares) {stage : Stage} {ref : Reference}
    (h : ref.Provided stage r) : ref.Known stage (r.shader.environment stage) := by
  cases ref with
  | property path name type =>
    obtain ⟨⟨a, entry, rfl, hvarying⟩, hunpack⟩ := h
    have known : r.propertyType? name = some a.type := by
      rw [propertyType?, entry]
      rfl
    cases stage with
    | vertex =>
      refine ⟨hr.name?_attribute known, fun hcolor => ?_⟩
      exact decide_eq_true (hunpack ⟨hcolor, rfl⟩)
    | fragment =>
      have hname := Shader.environment_name? (hr.declared_varying entry (hvarying rfl))
      exact hname.trans (Glsl.ofName?_typeName (hr.attributes.sized known))
  | styleVariable path name type =>
    obtain ⟨⟨v, entry, rfl⟩, hunpack⟩ := h
    have known : r.variableType? name = some v.type := by
      rw [variableType?, entry]
      rfl
    refine ⟨?_, fun hcolor => decide_eq_true (hunpack hcolor)⟩
    rw [Shader.environment_name? (hr.declared_uniform stage known)]
    exact Glsl.ofName?_storageTypeName (hr.uniforms.sized known)
  | text | number => trivial

/-- What the vertex shader computes for a varying has the type of the varying. -/
theorem Declares.type?_varying (hr : r.Declares) {v : Varying}
    (declared : v ∈ r.shader.varyings.values) :
    ∃ x t, Glsl.parse v.expression = some x ∧ ValueType.ofName? v.type = some t ∧
      x.type? (r.shader.environment .vertex) = some t := by
  obtain ⟨entry, hentry, rfl⟩ := List.mem_map.mp declared
  obtain ⟨name, type, known, rfl, hunpacks⟩ := hr.varyings hentry
  have hname := hr.name?_attribute known
  have hident := Glsl.isName_attributeName name
  have hword := Glsl.getElem_attributeName name
  have htype := Glsl.ofName?_typeName (hr.attributes.sized known)
  by_cases hcolor : type = .color
  · subst hcolor
    have hspelled : Glsl.Spelled .color _ _ := Glsl.Spelled.unpacked hident hword
    refine ⟨_, _, (hspelled.spells topLevel (by decide) (by decide)).parse_eq (by decide), htype, ?_⟩
    exact Tree.type?_unpacked hname (decide_eq_true (hunpacks rfl))
  · have hspelled : Glsl.Spelled type _ _ := Glsl.Spelled.ident hident hword
    have htext : (passing name type).expression = Glsl.attributeName name := by
      cases type <;> first | rfl | exact absurd rfl hcolor
    have hpassed : type.passedType = type.storedType := by
      cases type <;> first | rfl | exact absurd rfl hcolor
    have hread : (Tree.name (Glsl.attributeName name)).type? (r.shader.environment .vertex) =
        some type.passedType := by
      rw [hpassed]
      exact hname
    refine ⟨_, _, ?_, htype, hread⟩
    rw [htext]
    exact (hspelled.spells topLevel (by decide) (by decide)).parse_eq (by decide)

/-- The registry after a sequence of emissions, which may fail. -/
def afterEmissions (r : Registry) (calls : List (Stage × Expr)) : Registry :=
  calls.foldl (fun r call => ((emit call.1 call.2).run.run r).2) r

theorem afterEmissions_declares {calls : List (Stage × Expr)} (named : r.Named) (hr : r.Declares)
    (typed : ∀ call ∈ calls, call.2.WellTyped IsVectorSize) :
    (r.afterEmissions calls).Named ∧ (r.afterEmissions calls).Declares := by
  induction calls generalizing r with
  | nil => exact ⟨named, hr⟩
  | cons call calls ih =>
    rcases hrun : (emit call.1 call.2).run.run r with ⟨outcome, r'⟩
    have hsteps := emit_steps (typed call (by simp)) named hrun
    have hrest := ih (hsteps.named named) (hsteps.declares named hr)
      fun other hother => typed other (by simp [hother])
    rw [afterEmissions, List.foldl_cons, hrun]
    exact hrest

end Registry

theorem Expr.Built.sized {e : Expr} (h : e.Built IsVectorSize) : e.WellTyped IsVectorSize := by
  simpa only [or_self] using h.wellTyped

/-- Emitted code type-checks and refers to nothing that is not declared. After any emissions into
a fresh registry, the code of another expression has the type of the expression in the environment
that the declarations make up, and every varying is computed from a value of its type. -/
theorem emit_type_checks {calls : List (Stage × Expr)} {r : Registry}
    (built : ∀ call ∈ calls, call.2.Built IsVectorSize)
    (reached : Registry.afterEmissions {} calls = r) :
    (∀ v ∈ r.shader.varyings.values, ∃ x t, Glsl.parse v.expression = some x ∧
      ValueType.ofName? v.type = some t ∧ x.type? (r.shader.environment .vertex) = some t) ∧
    ∀ stage e t r', e.Built IsVectorSize → (emit stage e).run.run r = (.ok t, r') →
      ∃ x, Glsl.parse t.text = some x ∧
        x.type? (r'.shader.environment stage) = some e.type.valueType := by
  obtain ⟨named, declares⟩ := Registry.afterEmissions_declares (Registry.named_fresh {})
    Registry.declares_fresh fun call hcall => (built call hcall).sized
  rw [reached] at named declares
  refine ⟨fun v hv => declares.type?_varying hv, fun stage e t r' hbuilt hemit => ?_⟩
  have typed := hbuilt.sized
  have hdeclares := (emit_steps typed named hemit).declares named declares
  obtain ⟨rfl, hprovided⟩ := emit_ok typed named hemit
  have hspelled : e.IsSpelled stage r'.categories :=
    typed.isSpelled fun ref href => (hprovided ref href).finite
  refine ⟨e.tree stage r'.categories, ?_, ?_⟩
  · exact (hspelled.spells topLevel (by decide) (by decide)).parse_eq (by decide)
  · exact typed.type?_tree (hdeclares.provides stage)
      fun ref href => hdeclares.known (hprovided ref href)

private def tint : Value := .list [.text "get", .text "tint", .text "color"]

private def tintExpr : Expr := .get ⟨"fill-color"⟩ "tint" .color

/-- A color that both shaders read is stored packed, and is unpacked in the vertex shader. -/
theorem emit_type_checks_tint :
    (∃ x, Glsl.parse "unpackColor(a_tint)" = some x ∧
      x.type? ((Registry.afterEmissions {} [(.fragment, tintExpr), (.vertex, tintExpr)]).shader
        |>.environment .vertex) = some (.vec 4)) ∧
    ∃ x, Glsl.parse "v_tint" = some x ∧
      x.type? ((Registry.afterEmissions {} [(.fragment, tintExpr)]).shader
        |>.environment .fragment) = some (.vec 4) := by
  have hbuild : Builder.build ⟨.empty, []⟩ ⟨"fill-color"⟩ tint (.singleton .color) =
      (some tintExpr, ⟨.empty, []⟩) := by cbv
  have hbuilt : tintExpr.Built IsVectorSize := ⟨_, _, _, _, Or.inl ⟨_, hbuild⟩⟩
  have hcalls : ∀ call ∈ [(Stage.fragment, tintExpr)], call.2.Built IsVectorSize := by
    intro call hcall
    obtain rfl := List.mem_singleton.mp hcall
    exact hbuilt
  have hnone : ∀ call ∈ ([] : List (Stage × Expr)), call.2.Built IsVectorSize := by simp
  constructor
  · exact (emit_type_checks hcalls rfl).2 .vertex tintExpr _ _ hbuilt rfl
  · exact (emit_type_checks hnone rfl).2 .fragment tintExpr _ _ hbuilt rfl

end ShaderStyle
