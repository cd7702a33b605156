import ShaderStyle.Proofs.Glsl.Checking
import ShaderStyle.Proofs.Glsl.Name
import ShaderStyle.Proofs.Registry.Reference
import ShaderStyle.Proofs.Typing.WellTyped

/-! The declarations that a registry leaves in its shader: everything that it knows is declared,
and nothing else is. -/
namespace ShaderStyle

open Glsl (ValueType Environment)

namespace Shader

/-- The types that a name is declared with in a stage. -/
def declared (s : Shader) (stage : Stage) (ident : String) : List String :=
  let input :=
    match stage with
    | .vertex => s.attributes.get? ident
    | .fragment => (s.varyings.get? ident).map Varying.type
  let provided := if ident ∈ Glsl.providedUniforms then some "float" else none
  input.toList ++ ((s.uniforms.get? ident).toList ++ provided.toList)

/-- What the expressions of a stage can refer to: names that are declared, and only once. -/
def environment (s : Shader) (stage : Stage) : Environment where
  name? ident :=
    match s.declared stage ident with
    | [type] => ValueType.ofName? type
    | _ => none
  unpacks := decide (Glsl.unpackFunction ∈ s.functions stage)

theorem environment_name? {s : Shader} {stage : Stage} {ident type : String}
    (h : s.declared stage ident = [type]) :
    (s.environment stage).name? ident = ValueType.ofName? type := by
  change (match s.declared stage ident with
    | [type] => ValueType.ofName? type
    | _ => none) = _
  rw [h]

end Shader

namespace Registry

/-- Declarations of values of known types, under names that are made in one way. -/
structure Lists (identOf : String → String) (types : String → Option Ty)
    (decls : OrderedMap String String) : Prop where
  declared {name : String} {type : Ty} (known : types name = some type) :
    decls.get? (identOf name) = some (Glsl.storageTypeName type)
  sized {name : String} {type : Ty} (known : types name = some type) : type.Sized IsVectorSize
  named {ident type : String} (declared : decls.get? ident = some type) :
    ∃ name, ident = identOf name

theorem Lists.declare {identOf : String → String} {types : String → Option Ty}
    {decls decls' : OrderedMap String String} {family name : String} {type : Ty}
    (h : Lists identOf types decls) (sized : type.Sized IsVectorSize)
    (declared : Shader.declare family decls (identOf name) (Glsl.storageTypeName type) =
      .ok decls') :
    Lists identOf (fun other => if other = name then some type else types other) decls' where
  declared {other t} known := by
    split at known
    · next hname =>
      cases known
      rw [hname, Shader.declare_get? declared, if_pos rfl]
    · exact Shader.declare_keeps declared (h.declared known)
  sized {other t} known := by
    split at known
    · cases known
      exact sized
    · exact h.sized known
  named {ident t} known := by
    rw [Shader.declare_get? declared] at known
    split at known
    · next hident => exact ⟨name, hident⟩
    · exact h.named known

def propertyType? (r : Registry) (name : String) : Option Ty :=
  (r.attributes.get? name).map Attribute.type

def variableType? (r : Registry) (name : String) : Option Ty :=
  (r.vars.get? name).map Variable.type

/-- The varying that hands a property on to the fragment shader. -/
def passing (name : String) (type : Ty) : Varying :=
  ⟨Glsl.varyingName name, Glsl.typeName type, (attributeTerm (Glsl.attributeName name) type).text⟩

/-- The tables of a registry and the declarations of its shader are about the same names. -/
structure Declares (r : Registry) : Prop where
  attributes : Lists Glsl.attributeName r.propertyType? r.shader.attributes
  uniforms : Lists Glsl.uniformName r.variableType? r.shader.uniforms
  passed {name v : String} {a : Attribute} (entry : r.attributes.get? name = some a)
    (varying : a.varying = some v) :
    r.shader.varyings.get? (Glsl.varyingName name) = some (passing name a.type)
  varyings {entry : String × Varying} (declared : entry ∈ r.shader.varyings.entries) :
    ∃ name type, r.propertyType? name = some type ∧
      entry = (Glsl.varyingName name, passing name type) ∧
      (type = .color → Glsl.unpackFunction ∈ r.shader.vertexFunctions)

theorem declares_fresh : Declares {} where
  attributes := ⟨nofun, nofun, nofun⟩
  uniforms := ⟨nofun, nofun, nofun⟩
  passed := nofun
  varyings := nofun

variable {allowed : Ty → Prop} {r r' : Registry}

theorem Step.keeps_propertyType (h : Step allowed r r') {name : String} {type : Ty}
    (known : r.propertyType? name = some type) : r'.propertyType? name = some type := by
  obtain ⟨a, entry, rfl⟩ := Option.map_eq_some_iff.mp known
  obtain ⟨a', entry', htype, -, -⟩ := h.keeps_attribute entry
  exact Option.map_eq_some_iff.mpr ⟨a', entry', htype⟩

/-- The types of properties after a new one is entered. -/
theorem propertyType?_insert (r : Registry) (shader : Shader) (name : String) (a : Attribute) :
    propertyType? { r with shader, attributes := r.attributes.insert name a } =
      fun other => if other = name then some a.type else r.propertyType? other := by
  funext other
  rw [propertyType?, OrderedMap.get?_insert]
  split
  · rfl
  · rfl

theorem variableType?_insert (r : Registry) (shader : Shader) (name : String) (v : Variable) :
    variableType? { r with shader, vars := r.vars.insert name v } =
      fun other => if other = name then some v.type else r.variableType? other := by
  funext other
  rw [variableType?, OrderedMap.get?_insert]
  split
  · rfl
  · rfl

/-- Varyings that stay stand for properties that stay. -/
theorem Step.keeps_varyings (h : Step allowed r r') (hr : r.Declares) (entry : String × Varying)
    (declared : entry ∈ r.shader.varyings.entries) :
    ∃ name type, r'.propertyType? name = some type ∧
      entry = (Glsl.varyingName name, passing name type) ∧
      (type = .color → Glsl.unpackFunction ∈ r'.shader.vertexFunctions) := by
  obtain ⟨name, type, known, hentry, hunpacks⟩ := hr.varyings declared
  refine ⟨name, type, h.keeps_propertyType known, hentry, fun hcolor => ?_⟩
  have hmem : Glsl.unpackFunction ∈ r.shader.functions .vertex := hunpacks hcolor
  exact h.keeps_functions hmem

theorem Step.declares (h : Step (Ty.Sized IsVectorSize) r r') (named : r.Named)
    (hr : r.Declares) : r'.Declares := by
  have hkept := h.keeps_varyings hr
  cases h with
  | claim | category => exact ⟨hr.attributes, hr.uniforms, hr.passed, hr.varyings⟩
  | unpack stage => cases stage <;> exact ⟨hr.attributes, hr.uniforms, hr.passed, hkept _⟩
  | property name type shader typed new declared =>
    obtain ⟨attributes, hdeclare, rfl⟩ := Shader.addAttribute_cases declared
    refine ⟨?_, hr.uniforms, fun {other v a} entry varying => ?_, hkept _⟩
    · rw [propertyType?_insert]
      exact hr.attributes.declare typed hdeclare
    · rw [OrderedMap.get?_insert] at entry
      split at entry
      · cases entry
        cases varying
      · exact hr.passed entry varying
  | varying name known shader registered first unpacks declared =>
    have hident : known.ident = Glsl.attributeName name := named.ident_eq registered
    rw [hident] at declared
    have hshader := Shader.addVarying_eq declared
    have htypes : propertyType? { r with
        shader
        attributes := r.attributes.insert name
          { known with varying := some (Glsl.varyingName name) } } = r.propertyType? := by
      rw [propertyType?_insert]
      funext other
      split
      · next hname =>
        rw [hname, propertyType?, registered]
        rfl
      · rfl
    refine ⟨?_, ?_, fun {other v a} entry passes => ?_, fun {entry} passes => ?_⟩
    · rw [htypes, hshader]
      exact hr.attributes
    · rw [hshader]
      exact hr.uniforms
    · rw [OrderedMap.get?_insert] at entry
      split at entry
      · next hname =>
        cases entry
        rw [hname]
        exact Shader.addVarying_get? declared
      · exact Shader.addVarying_keeps declared (hr.passed entry passes)
    · rcases Shader.addVarying_mem declared passes with rfl | hold
      · refine ⟨name, known.type, ?_, rfl, fun hcolor => ?_⟩
        · rw [htypes, propertyType?, registered]
          rfl
        · rw [hshader]
          exact unpacks hcolor
      · exact hkept entry hold
  | uniform name type shader typed new declared =>
    obtain ⟨uniforms, hdeclare, rfl⟩ := Shader.addUniform_cases declared
    refine ⟨hr.attributes, ?_, hr.passed, hkept _⟩
    rw [variableType?_insert]
    exact hr.uniforms.declare typed hdeclare

theorem Steps.declares (h : Steps (Ty.Sized IsVectorSize) r r') (named : r.Named)
    (hr : r.Declares) : r'.Declares :=
  (h.keeps (fun r => r.Named ∧ r.Declares) (fun hstep hr =>
    ⟨hstep.named hr.1, hstep.declares hr.1 hr.2⟩) ⟨named, hr⟩).2

namespace Declares

theorem declared_attribute (hr : r.Declares) {name : String} {type : Ty}
    (known : r.propertyType? name = some type) :
    r.shader.declared .vertex (Glsl.attributeName name) = [Glsl.storageTypeName type] := by
  have huniform : r.shader.uniforms.get? (Glsl.attributeName name) = none := by
    rw [Option.eq_none_iff_forall_not_mem]
    intro t ht
    obtain ⟨other, hother⟩ := hr.uniforms.named ht
    exact Glsl.attributeName_ne_uniformName name other hother
  unfold Shader.declared
  rw [hr.attributes.declared known, huniform, if_neg (Glsl.attributeName_notMem_provided name)]
  rfl

theorem declared_varying (hr : r.Declares) {name v : String} {a : Attribute}
    (entry : r.attributes.get? name = some a) (varying : a.varying = some v) :
    r.shader.declared .fragment (Glsl.varyingName name) = [Glsl.typeName a.type] := by
  have huniform : r.shader.uniforms.get? (Glsl.varyingName name) = none := by
    rw [Option.eq_none_iff_forall_not_mem]
    intro t ht
    obtain ⟨other, hother⟩ := hr.uniforms.named ht
    exact Glsl.varyingName_ne_uniformName name other hother
  unfold Shader.declared
  rw [hr.passed entry varying, huniform, if_neg (Glsl.varyingName_notMem_provided name)]
  rfl

/-- Inputs of a stage, which are attributes or varyings, are no uniforms. -/
theorem input_ne_uniform (hr : r.Declares) {stage : Stage} {ident : String}
    (h : (∃ name, ident = Glsl.uniformName name) ∨ ident ∈ Glsl.providedUniforms) :
    (match stage with
      | .vertex => r.shader.attributes.get? ident
      | .fragment => (r.shader.varyings.get? ident).map Varying.type) = none := by
  rw [Option.eq_none_iff_forall_not_mem]
  intro t ht
  cases stage with
  | vertex =>
    obtain ⟨other, rfl⟩ := hr.attributes.named ht
    rcases h with ⟨name, hname⟩ | hprovided
    · exact Glsl.attributeName_ne_uniformName other name hname
    · exact Glsl.attributeName_notMem_provided other hprovided
  | fragment =>
    obtain ⟨v, hv, -⟩ := Option.map_eq_some_iff.mp ht
    obtain ⟨other, type, -, hentry, -⟩ := hr.varyings (OrderedMap.mem_entries_of_get? hv)
    cases hentry
    rcases h with ⟨name, hname⟩ | hprovided
    · exact Glsl.varyingName_ne_uniformName other name hname
    · exact Glsl.varyingName_notMem_provided other hprovided

theorem declared_uniform (hr : r.Declares) (stage : Stage) {name : String} {type : Ty}
    (known : r.variableType? name = some type) :
    r.shader.declared stage (Glsl.uniformName name) = [Glsl.storageTypeName type] := by
  unfold Shader.declared
  rw [hr.input_ne_uniform (Or.inl ⟨name, rfl⟩), hr.uniforms.declared known,
    if_neg (Glsl.uniformName_notMem_provided name)]
  rfl

theorem declared_provided (hr : r.Declares) (stage : Stage) {ident : String}
    (h : ident ∈ Glsl.providedUniforms) : r.shader.declared stage ident = ["float"] := by
  have huniform : r.shader.uniforms.get? ident = none := by
    rw [Option.eq_none_iff_forall_not_mem]
    intro t ht
    obtain ⟨other, rfl⟩ := hr.uniforms.named ht
    exact Glsl.uniformName_notMem_provided other h
  unfold Shader.declared
  rw [hr.input_ne_uniform (Or.inr h), huniform, if_pos h]
  rfl

end Declares

end Registry

end ShaderStyle
