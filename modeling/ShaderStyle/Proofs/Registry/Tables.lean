import ShaderStyle.Proofs.Registry.Declarations
import ShaderStyle.Proofs.Tabulation

/-! The tables of a registry as functions of what it was asked for. A request is refused exactly
where it does not go together with the earlier ones. -/
namespace ShaderStyle

/-- Names that go together in one shader: a name has one type, and two names have two
identifiers. -/
structure Coherent (names : List (String × Ty)) : Prop where
  one_type {p q : String × Ty} (hp : p ∈ names) (hq : q ∈ names) (same : p.1 = q.1) : p.2 = q.2
  apart {p q : String × Ty} (hp : p ∈ names) (hq : q ∈ names) (differ : p.1 ≠ q.1) :
    Glsl.mangle p.1 ≠ Glsl.mangle q.1

namespace Coherent

variable {names : List (String × Ty)} {p q : String × Ty}

theorem eq_of_mangle (h : Coherent names) (hp : p ∈ names) (hq : q ∈ names)
    (same : Glsl.mangle p.1 = Glsl.mangle q.1) : p = q := by
  have hname : p.1 = q.1 := by
    by_contra differ
    exact h.apart hp hq differ same
  exact Prod.ext hname (h.one_type hp hq hname)

theorem nil : Coherent [] := ⟨nofun, nofun⟩

theorem mono {names' : List (String × Ty)} (h : Coherent names) (hsub : names' ⊆ names) :
    Coherent names' :=
  ⟨fun hp hq => h.one_type (hsub hp) (hsub hq), fun hp hq => h.apart (hsub hp) (hsub hq)⟩

theorem known (h : Coherent names) (hq : q ∈ names) : Coherent (names ++ [q]) :=
  h.mono (by simp [List.append_subset, hq])

theorem concat (h : Coherent names) (new : ∀ p ∈ names, Glsl.mangle p.1 ≠ Glsl.mangle q.1) :
    Coherent (names ++ [q]) where
  one_type {a b} ha hb same := by
    simp only [List.mem_append, List.mem_singleton] at ha hb
    rcases ha with ha | rfl <;> rcases hb with hb | rfl
    · exact h.one_type ha hb same
    · exact absurd (congrArg Glsl.mangle same) (new a ha)
    · exact absurd (congrArg Glsl.mangle same.symm) (new b hb)
    · rfl
  apart {a b} ha hb differ := by
    simp only [List.mem_append, List.mem_singleton] at ha hb
    rcases ha with ha | rfl <;> rcases hb with hb | rfl
    · exact h.apart ha hb differ
    · exact new a ha
    · exact (new b hb).symm
    · exact absurd rfl differ

end Coherent

namespace Glsl

theorem attributeName_eq_iff {a b : String} : attributeName a = attributeName b ↔
    mangle a = mangle b := by
  rw [← String.toList_inj, toList_attributeName, toList_attributeName]
  simp [String.toList_inj]

theorem varyingName_eq_iff {a b : String} : varyingName a = varyingName b ↔
    mangle a = mangle b := by
  rw [← String.toList_inj, toList_varyingName, toList_varyingName]
  simp [String.toList_inj]

theorem uniformName_eq_iff {a b : String} : uniformName a = uniformName b ↔
    mangle a = mangle b := by
  rw [← String.toList_inj, toList_uniformName, toList_uniformName]
  simp [String.toList_inj]

theorem attributeName_ne_varyingName (name other : String) :
    attributeName name ≠ varyingName other := by
  intro h
  have hlist := congrArg String.toList h
  rw [toList_attributeName, toList_varyingName] at hlist
  cases hlist

end Glsl

/-- What a stage that reads properties needs of the vertex shader. -/
def Stage.passedOn (properties : List (String × Ty)) : Stage → List (String × Ty)
  | .vertex => []
  | .fragment => properties

@[simp] theorem Stage.passedOn_nil (stage : Stage) : stage.passedOn [] = [] := by
  cases stage with
  | vertex => rfl
  | fragment => rfl

/-- An attribute after some properties were passed on. -/
def Attribute.passedOn (added : List (String × Ty)) (a : Attribute) : Attribute :=
  if (a.name, a.type) ∈ added then { a with varying := some (Glsl.varyingName a.name) } else a

theorem Attribute.passedOn_nil (a : Attribute) : a.passedOn [] = a := if_neg List.not_mem_nil

theorem Attribute.passedOn_append (added added' : List (String × Ty)) (a : Attribute) :
    a.passedOn (added ++ added') = (a.passedOn added).passedOn added' := by
  simp only [passedOn, List.mem_append]
  by_cases h : (a.name, a.type) ∈ added <;> by_cases h' : (a.name, a.type) ∈ added' <;>
    simp [h, h']

namespace Registry

/-- The identifiers of one family that are reserved, each for the name it was made from. -/
def Claims (identOf : String → String) (names : List (String × Ty))
    (idents : OrderedMap String String) : Prop :=
  ∀ name previous, idents.get? (identOf name) = some previous ↔
    ∃ p ∈ names, p.1 = previous ∧ Glsl.mangle p.1 = Glsl.mangle name

namespace Claims

variable {identOf : String → String} {names : List (String × Ty)}
  {idents : OrderedMap String String} {q : String × Ty} {name : String}

theorem get?_eq_none (h : Claims identOf names idents) :
    idents.get? (identOf name) = none ↔ ∀ p ∈ names, Glsl.mangle p.1 ≠ Glsl.mangle name := by
  rw [Option.eq_none_iff_forall_ne_some]
  constructor
  · intro hnone p hp same
    exact hnone p.1 ((h name p.1).mpr ⟨p, hp, rfl, same⟩)
  · intro hnew previous hsome
    obtain ⟨p, hp, -, same⟩ := (h name previous).mp hsome
    exact hnew p hp same

theorem known (h : Claims identOf names idents) (hq : q ∈ names) :
    Claims identOf (names ++ [q]) idents := by
  intro name previous
  rw [h name previous]
  constructor
  · rintro ⟨p, hp, hprevious⟩
    exact ⟨p, List.mem_append_left _ hp, hprevious⟩
  · rintro ⟨p, hp, hprevious⟩
    rcases List.mem_append.mp hp with hp | hp
    · exact ⟨p, hp, hprevious⟩
    · obtain rfl := List.mem_singleton.mp hp
      exact ⟨p, hq, hprevious⟩

/-- An identifier of another family changes nothing. -/
theorem other (h : Claims identOf names idents) {ident : String} (hne : ∀ n, identOf n ≠ ident)
    (value : String) : Claims identOf names (idents.insert ident value) := by
  intro name previous
  rw [OrderedMap.get?_insert_other _ _ (hne name)]
  exact h name previous

theorem insert (h : Claims identOf names idents)
    (hident : ∀ {a b}, identOf a = identOf b ↔ Glsl.mangle a = Glsl.mangle b)
    (new : ∀ p ∈ names, Glsl.mangle p.1 ≠ Glsl.mangle q.1) :
    Claims identOf (names ++ [q]) (idents.insert (identOf q.1) q.1) := by
  intro name previous
  rw [OrderedMap.get?_insert]
  by_cases hsame : identOf name = identOf q.1
  · rw [if_pos hsame]
    constructor
    · rintro ⟨⟩
      exact ⟨q, by simp, rfl, (hident.mp hsame).symm⟩
    · rintro ⟨p, hp, rfl, hmangle⟩
      rcases List.mem_append.mp hp with hp | hp
      · exact absurd (hmangle.trans (hident.mp hsame)) (new p hp)
      · rw [List.mem_singleton.mp hp]
  · rw [if_neg hsame, h name previous]
    constructor
    · rintro ⟨p, hp, hprevious⟩
      exact ⟨p, List.mem_append_left _ hp, hprevious⟩
    · rintro ⟨p, hp, hprevious, hmangle⟩
      rcases List.mem_append.mp hp with hp | hp
      · exact ⟨p, hp, hprevious, hmangle⟩
      · rw [List.mem_singleton.mp hp] at hmangle
        exact absurd (hident.mpr hmangle.symm) hsame

end Claims

/-- The entry of a property; the fragment shader reads those that are passed on. -/
def attributeOf (passed : List (String × Ty)) (p : String × Ty) : Attribute where
  name := p.1
  ident := Glsl.attributeName p.1
  varying := if p ∈ passed then some (Glsl.varyingName p.1) else none
  type := p.2

def variableOf (p : String × Ty) : Variable where
  name := p.1
  ident := Glsl.uniformName p.1
  type := p.2

/-- What a registry holds after requests for properties, some of them for the fragment shader, and
for variables. Uniforms of the given other names are declared by others. -/
structure Tables (others : List String) (properties passed styleVariables : List (String × Ty))
    (r : Registry) : Prop where
  apart (name : String) : Glsl.uniformName name ∉ others
  coherent_properties : Coherent properties
  coherent_variables : Coherent styleVariables
  passed_subset : passed ⊆ properties
  attributes : r.attributes.Tabulates Prod.fst (attributeOf passed) properties
  vars : r.vars.Tabulates Prod.fst variableOf styleVariables
  declared_attributes : r.shader.attributes.Tabulates (fun p => Glsl.attributeName p.1)
    (fun p => Glsl.storageTypeName p.2) properties
  declared_uniforms : (r.shader.uniforms.without others).Tabulates
    (fun p => Glsl.uniformName p.1) (fun p => Glsl.storageTypeName p.2) styleVariables
  declared_varyings : r.shader.varyings.Tabulates (fun p => Glsl.varyingName p.1)
    (fun p => passing p.1 p.2) passed
  attributes_claimed : Claims Glsl.attributeName properties r.idents
  varyings_claimed : Claims Glsl.varyingName passed r.idents
  uniforms_claimed : Claims Glsl.uniformName styleVariables r.idents

theorem tables_fresh {others : List String} (apart : ∀ name, Glsl.uniformName name ∉ others) :
    Tables others [] [] [] {} where
  apart := apart
  coherent_properties := .nil
  coherent_variables := .nil
  passed_subset := List.Subset.refl []
  attributes := rfl
  vars := rfl
  declared_attributes := rfl
  declared_uniforms := rfl
  declared_varyings := rfl
  attributes_claimed := by simp [Claims, OrderedMap.get?, OrderedMap.empty]
  varyings_claimed := by simp [Claims, OrderedMap.get?, OrderedMap.empty]
  uniforms_claimed := by simp [Claims, OrderedMap.get?, OrderedMap.empty]

/-- How a computation ends: with a value and a registry, or refused. -/
def Ends {α : Type} (m : RegistryM α) (r : Registry) (accepted : α → Registry → Prop)
    (refused : Prop) : Prop :=
  match m.run.run r with
  | (.ok a, r') => accepted a r'
  | (.error _, _) => refused

namespace Ends

variable {α β : Type} {m : RegistryM α} {r r' : Registry} {P : α → Registry → Prop} {refused : Prop}

theorem of_ok {a : α} (h : m.run.run r = (.ok a, r')) (hP : P a r') : Ends m r P refused := by
  rw [Ends, h]
  exact hP

theorem of_error {i : Issue} (h : m.run.run r = (.error i, r')) (hrefused : refused) :
    Ends m r P refused := by
  rw [Ends, h]
  exact hrefused

theorem bind {f : α → RegistryM β} {Q : β → Registry → Prop} (h : Ends m r P refused)
    (h' : ∀ a r', m.run.run r = (.ok a, r') → P a r' → Ends (f a) r' Q refused) :
    Ends (m >>= f) r Q refused := by
  rcases hrun : m.run.run r with ⟨outcome, r'⟩
  rw [Ends, hrun] at h
  rw [Ends, run_bind, hrun]
  cases outcome with
  | ok a => exact h' a r' hrun h
  | error i => exact h

theorem mono {Q : α → Registry → Prop} {refused' : Prop} (h : Ends m r P refused)
    (hPQ : ∀ a r', m.run.run r = (.ok a, r') → P a r' → Q a r') (himp : refused → refused') :
    Ends m r Q refused' := by
  rcases hrun : m.run.run r with ⟨outcome, r'⟩
  rw [Ends, hrun] at h ⊢
  cases outcome with
  | ok a => exact hPQ a r' hrun h
  | error i => exact himp h

end Ends

section Requests

variable {r r' : Registry} {path : Path} {ident name previous : String} {type : Ty}

theorem claim_free (h : r.idents.get? ident = none) :
    (claim path ident name).run.run r =
      (.ok (), { r with idents := r.idents.insert ident name }) := by
  rw [claim, run_bind_ok (run_get r), h]
  rfl

theorem claim_taken (h : r.idents.get? ident = some previous) (hne : previous ≠ name) :
    (claim path ident name).run.run r =
      (.error ⟨path, .identClash previous name ident⟩, r) := by
  rw [claim, run_bind_ok (run_get r), h]
  dsimp only
  rw [if_pos hne]
  rfl

theorem declare_ok {change : Shader → Except Conflict Shader} {shader : Shader}
    (h : change r.shader = .ok shader) :
    (declare path change).run.run r = (.ok (), { r with shader }) := by
  rw [declare, run_bind_ok (run_get r), h]
  rfl

theorem registerAttribute_known {known : Attribute} (h : r.attributes.get? name = some known)
    (htype : known.type = type) :
    (registerAttribute path name type).run.run r = (.ok known, r) := by
  rw [registerAttribute, run_bind_ok (run_get r), h]
  dsimp only
  rw [checkType, if_pos htype]
  rfl

theorem registerAttribute_conflict {known : Attribute} (h : r.attributes.get? name = some known)
    (htype : known.type ≠ type) :
    (registerAttribute path name type).run.run r =
      (.error ⟨path, .conflictingUse "feature property" name type known.type⟩, r) := by
  rw [registerAttribute, run_bind_ok (run_get r), h]
  dsimp only
  rw [checkType, if_neg htype]
  rfl

theorem registerAttribute_clash (h : r.attributes.get? name = none)
    (hident : r.idents.get? (Glsl.attributeName name) = some previous) (hne : previous ≠ name) :
    (registerAttribute path name type).run.run r =
      (.error ⟨path, .identClash previous name (Glsl.attributeName name)⟩, r) := by
  rw [registerAttribute, run_bind_ok (run_get r), h]
  dsimp only
  rw [run_bind, claim_taken hident hne]

theorem registerAttribute_new (h : r.attributes.get? name = none)
    (hident : r.idents.get? (Glsl.attributeName name) = none)
    (hdecl : r.shader.attributes.get? (Glsl.attributeName name) = none) :
    (registerAttribute path name type).run.run r =
      (.ok { name, ident := Glsl.attributeName name, type },
        { r with
          shader := { r.shader with attributes :=
            r.shader.attributes.insert (Glsl.attributeName name) (Glsl.storageTypeName type) }
          attributes := r.attributes.insert name { name, ident := Glsl.attributeName name, type }
          idents := r.idents.insert (Glsl.attributeName name) name }) := by
  have hdeclare : r.shader.addAttribute (Glsl.attributeName name) (Glsl.storageTypeName type) =
      .ok { r.shader with attributes :=
        r.shader.attributes.insert (Glsl.attributeName name) (Glsl.storageTypeName type) } := by
    rw [Shader.addAttribute, Shader.declare, hdecl]
    rfl
  rw [registerAttribute, run_bind_ok (run_get r), h]
  dsimp only
  rw [run_bind_ok (claim_free hident), run_bind_ok (declare_ok hdeclare)]
  rfl

theorem styleVariable_known {v : Variable} (h : r.vars.get? name = some v) (htype : v.type = type) :
    (styleVariable path name type).run.run r = (.ok v.ident, r) := by
  rw [styleVariable, run_bind_ok (run_get r), h]
  dsimp only
  rw [checkType, if_pos htype]
  rfl

theorem styleVariable_conflict {v : Variable} (h : r.vars.get? name = some v)
    (htype : v.type ≠ type) :
    (styleVariable path name type).run.run r =
      (.error ⟨path, .conflictingUse "variable" name type v.type⟩, r) := by
  rw [styleVariable, run_bind_ok (run_get r), h]
  dsimp only
  rw [checkType, if_neg htype]
  rfl

theorem styleVariable_clash (h : r.vars.get? name = none)
    (hident : r.idents.get? (Glsl.uniformName name) = some previous) (hne : previous ≠ name) :
    (styleVariable path name type).run.run r =
      (.error ⟨path, .identClash previous name (Glsl.uniformName name)⟩, r) := by
  rw [styleVariable, run_bind_ok (run_get r), h]
  dsimp only
  rw [run_bind, claim_taken hident hne]

theorem styleVariable_new (h : r.vars.get? name = none)
    (hident : r.idents.get? (Glsl.uniformName name) = none)
    (hdecl : r.shader.uniforms.get? (Glsl.uniformName name) = none) :
    (styleVariable path name type).run.run r =
      (.ok (Glsl.uniformName name),
        { r with
          shader := { r.shader with uniforms :=
            r.shader.uniforms.insert (Glsl.uniformName name) (Glsl.storageTypeName type) }
          vars := r.vars.insert name { name, ident := Glsl.uniformName name, type }
          idents := r.idents.insert (Glsl.uniformName name) name }) := by
  have hdeclare : r.shader.addUniform (Glsl.uniformName name) (Glsl.storageTypeName type) =
      .ok { r.shader with uniforms :=
        r.shader.uniforms.insert (Glsl.uniformName name) (Glsl.storageTypeName type) } := by
    rw [Shader.addUniform, Shader.declare, hdecl]
    rfl
  rw [styleVariable, run_bind_ok (run_get r), h]
  dsimp only
  rw [run_bind_ok (claim_free hident), run_bind_ok (declare_ok hdeclare)]
  rfl

/-- The shader with the helper that the varying of a color calls. -/
def withHelper (shader : Shader) (type : Ty) : Shader :=
  if type = .color then shader.addFunction .vertex Glsl.unpackFunction else shader

theorem withHelper_varyings (shader : Shader) (type : Ty) :
    (withHelper shader type).varyings = shader.varyings := by
  unfold withHelper
  split
  · rfl
  · rfl

theorem addVarying_new {shader : Shader} {v : Varying} (h : shader.varyings.get? v.name = none) :
    shader.addVarying v = .ok { shader with varyings := shader.varyings.insert v.name v } := by
  rw [Shader.addVarying, h]

theorem property_new_varying {known : Attribute}
    (hreg : (registerAttribute path name type).run.run r = (.ok known, r'))
    (first : known.varying = none) (hident : r'.idents.get? (Glsl.varyingName name) = none)
    (hdecl : r'.shader.varyings.get? (Glsl.varyingName name) = none) :
    (property path name type .fragment).run.run r =
      (.ok (Glsl.varyingName name),
        { r' with
          shader := { withHelper r'.shader type with
            varyings := (withHelper r'.shader type).varyings.insert (Glsl.varyingName name)
              ⟨Glsl.varyingName name, Glsl.typeName type, (attributeTerm known.ident type).text⟩ }
          attributes := r'.attributes.insert name
            { known with varying := some (Glsl.varyingName name) }
          idents := r'.idents.insert (Glsl.varyingName name) name }) := by
  rw [← withHelper_varyings r'.shader type] at hdecl
  rw [property, run_bind_ok hreg]
  simp only [first]
  rw [run_bind_ok (claim_free hident)]
  by_cases hcolor : type = .color
  · rw [withHelper, if_pos hcolor] at hdecl ⊢
    rw [if_pos hcolor, addFunction, run_bind_ok (run_modify _ _),
      run_bind_ok (declare_ok (addVarying_new hdecl))]
    rfl
  · rw [withHelper, if_neg hcolor] at hdecl ⊢
    rw [if_neg hcolor, run_bind_ok (declare_ok (addVarying_new hdecl))]
    rfl

end Requests

namespace Tables

variable {others : List String} {properties passed styleVariables : List (String × Ty)}
  {r r' : Registry} {path : Path} {name : String} {type : Ty}

theorem eq_of_property (h : r.Tables others properties passed styleVariables) {p q : String × Ty}
    (hp : p ∈ properties) (hq : q ∈ properties) (same : p.1 = q.1) : p = q :=
  h.coherent_properties.eq_of_mangle hp hq (congrArg Glsl.mangle same)

theorem named (h : r.Tables others properties passed styleVariables) : r.Named where
  ident_eq entry := by
    obtain ⟨p, -, rfl, rfl⟩ := h.attributes.get?_eq_some entry
    rfl
  varying_eq entry declared := by
    obtain ⟨p, -, rfl, rfl⟩ := h.attributes.get?_eq_some entry
    rw [attributeOf] at declared
    split at declared
    · exact (Option.some.inj declared).symm
    · cases declared
  uniform_eq entry := by
    obtain ⟨p, -, rfl, rfl⟩ := h.vars.get?_eq_some entry
    rfl

/-- A property that was asked for before. -/
theorem again_property (h : r.Tables others properties passed styleVariables)
    (hq : (name, type) ∈ properties) :
    r.Tables others (properties ++ [(name, type)]) passed styleVariables :=
  { h with
    coherent_properties := h.coherent_properties.known hq
    passed_subset := List.Subset.trans h.passed_subset (List.subset_append_left _ _)
    attributes := h.attributes.known hq
    declared_attributes := h.declared_attributes.known hq
    attributes_claimed := h.attributes_claimed.known hq }

theorem again_variable (h : r.Tables others properties passed styleVariables)
    (hq : (name, type) ∈ styleVariables) :
    r.Tables others properties passed (styleVariables ++ [(name, type)]) :=
  { h with
    coherent_variables := h.coherent_variables.known hq
    vars := h.vars.known hq
    declared_uniforms := h.declared_uniforms.known hq
    uniforms_claimed := h.uniforms_claimed.known hq }

theorem new_property (h : r.Tables others properties passed styleVariables)
    (new : ∀ p ∈ properties, Glsl.mangle p.1 ≠ Glsl.mangle name) :
    Tables others (properties ++ [(name, type)]) passed styleVariables { r with
      shader := { r.shader with attributes :=
        r.shader.attributes.insert (Glsl.attributeName name) (Glsl.storageTypeName type) }
      attributes := r.attributes.insert name { name, ident := Glsl.attributeName name, type }
      idents := r.idents.insert (Glsl.attributeName name) name } :=
  { h with
    coherent_properties := h.coherent_properties.concat new
    passed_subset := List.Subset.trans h.passed_subset (List.subset_append_left _ _)
    attributes := by
      have hnew : ∀ p ∈ properties, p.1 ≠ (name, type).1 := fun p hp heq =>
        new p hp (congrArg Glsl.mangle heq)
      have hvalue : attributeOf passed (name, type) =
          { name, ident := Glsl.attributeName name, type } := by
        have hnot : (name, type) ∉ passed := fun hmem => hnew _ (h.passed_subset hmem) rfl
        rw [attributeOf, if_neg hnot]
      have hinsert := h.attributes.insert hnew
      rw [hvalue] at hinsert
      exact hinsert
    declared_attributes := h.declared_attributes.insert (q := (name, type)) fun p hp heq =>
      new p hp (Glsl.attributeName_eq_iff.mp heq)
    attributes_claimed :=
      h.attributes_claimed.insert (q := (name, type)) Glsl.attributeName_eq_iff new
    varyings_claimed :=
      h.varyings_claimed.other (fun n => (Glsl.attributeName_ne_varyingName name n).symm) name
    uniforms_claimed :=
      h.uniforms_claimed.other (fun n => (Glsl.attributeName_ne_uniformName name n).symm) name }

theorem new_variable (h : r.Tables others properties passed styleVariables)
    (new : ∀ p ∈ styleVariables, Glsl.mangle p.1 ≠ Glsl.mangle name)
    (hnone : r.shader.uniforms.get? (Glsl.uniformName name) = none) :
    Tables others properties passed (styleVariables ++ [(name, type)]) { r with
      shader := { r.shader with uniforms :=
        r.shader.uniforms.insert (Glsl.uniformName name) (Glsl.storageTypeName type) }
      vars := r.vars.insert name { name, ident := Glsl.uniformName name, type }
      idents := r.idents.insert (Glsl.uniformName name) name } :=
  { h with
    coherent_variables := h.coherent_variables.concat new
    vars := h.vars.insert (q := (name, type)) fun p hp heq => new p hp (congrArg Glsl.mangle heq)
    declared_uniforms := by
      have hinsert := h.declared_uniforms.insert (q := (name, type)) fun p hp heq =>
        new p hp (Glsl.uniformName_eq_iff.mp heq)
      rw [← OrderedMap.without_insert_new hnone (h.apart name)] at hinsert
      exact hinsert
    attributes_claimed :=
      h.attributes_claimed.other (fun n => Glsl.attributeName_ne_uniformName n name) name
    varyings_claimed :=
      h.varyings_claimed.other (fun n => Glsl.varyingName_ne_uniformName n name) name
    uniforms_claimed := h.uniforms_claimed.insert (q := (name, type)) Glsl.uniformName_eq_iff new }

/-- A property that the fragment shader reads for the first time. -/
theorem new_varying (h : r.Tables others properties passed styleVariables)
    (hq : (name, type) ∈ properties) (new : (name, type) ∉ passed) :
    Tables others properties (passed ++ [(name, type)]) styleVariables { r with
      shader := { r.shader with varyings :=
        r.shader.varyings.insert (Glsl.varyingName name) (passing name type) }
      attributes := r.attributes.insert name { attributeOf passed (name, type) with
        varying := some (Glsl.varyingName name) }
      idents := r.idents.insert (Glsl.varyingName name) name } := by
  have hmangle (p : String × Ty) (hp : p ∈ passed) :
      Glsl.mangle p.1 ≠ Glsl.mangle (name, type).1 := fun same =>
    new (h.coherent_properties.eq_of_mangle (h.passed_subset hp) hq same ▸ hp)
  exact { h with
    passed_subset := by
      rw [List.append_subset]
      exact ⟨h.passed_subset, by simpa using hq⟩
    attributes := by
      have hvalue : attributeOf (passed ++ [(name, type)]) (name, type) =
          { attributeOf passed (name, type) with varying := some (Glsl.varyingName name) } := by
        simp [attributeOf]
      have hkept (p : String × Ty) (hne : p ≠ (name, type)) :
          attributeOf passed p = attributeOf (passed ++ [(name, type)]) p := by
        simp [attributeOf, hne]
      rw [← hvalue]
      exact h.attributes.update (fun p hp q hq => h.eq_of_property hp hq) hq fun p _ => hkept p
    declared_varyings := h.declared_varyings.insert (q := (name, type)) fun p hp heq =>
      hmangle p hp (Glsl.varyingName_eq_iff.mp heq)
    attributes_claimed :=
      h.attributes_claimed.other (fun n => Glsl.attributeName_ne_varyingName n name) name
    varyings_claimed :=
      h.varyings_claimed.insert (q := (name, type)) Glsl.varyingName_eq_iff hmangle
    uniforms_claimed :=
      h.uniforms_claimed.other (fun n => (Glsl.varyingName_ne_uniformName name n).symm) name }

theorem again_varying (h : r.Tables others properties passed styleVariables)
    (hq : (name, type) ∈ passed) :
    r.Tables others properties (passed ++ [(name, type)]) styleVariables :=
  { h with
    passed_subset := by
      rw [List.append_subset]
      exact ⟨h.passed_subset, by simpa using h.passed_subset hq⟩
    attributes := h.attributes.congr fun p _ => by
      have hiff : p ∈ passed ++ [(name, type)] ↔ p ∈ passed := by
        simp only [List.mem_append, List.mem_singleton, or_iff_left_iff_imp]
        rintro rfl
        exact hq
      simp [attributeOf, hiff]
    declared_varyings := h.declared_varyings.known hq
    varyings_claimed := h.varyings_claimed.known hq }

/-- Helper functions do not matter to the tables. -/
theorem addFunction (h : r.Tables others properties passed styleVariables) (stage : Stage)
    (source : String) :
    Tables others properties passed styleVariables
      { r with shader := r.shader.addFunction stage source } := by
  cases stage with
  | vertex => exact { h with }
  | fragment => exact { h with }

theorem withHelper (h : r.Tables others properties passed styleVariables) (type : Ty) :
    Tables others properties passed styleVariables
      { r with shader := Registry.withHelper r.shader type } := by
  unfold Registry.withHelper
  split
  · exact h.addFunction .vertex Glsl.unpackFunction
  · exact h

/-- A uniform that belongs to no variable may be one of the others. -/
theorem cons_other (h : r.Tables others properties passed styleVariables) {other : String}
    (foreign : ∀ name, Glsl.uniformName name ≠ other) :
    r.Tables (other :: others) properties passed styleVariables :=
  { h with
    apart := fun name hmem => by
      rcases List.mem_cons.mp hmem with heq | hmem
      · exact foreign name heq
      · exact h.apart name hmem
    declared_uniforms := h.declared_uniforms.leaveOut fun p _ => foreign p.1 }

/-- Other uniforms do not matter to the tables. -/
theorem addUniform (h : r.Tables others properties passed styleVariables) {other type : String}
    {shader : Shader} (hother : other ∈ others)
    (declared : r.shader.addUniform other type = .ok shader) :
    Tables others properties passed styleVariables { r with shader } := by
  obtain ⟨uniforms, hdeclare, rfl⟩ := Shader.addUniform_cases declared
  have hwithout : uniforms.without others = r.shader.uniforms.without others := by
    unfold Shader.declare at hdeclare
    split at hdeclare
    · next hnone =>
      cases hdeclare
      exact OrderedMap.without_insert_other hnone hother type
    · split at hdeclare
      · cases hdeclare
        rfl
      · cases hdeclare
  exact { h with declared_uniforms := hwithout ▸ h.declared_uniforms }

/-- An identifier that no property has reserved is not declared either. -/
theorem attribute_undeclared (h : r.Tables others properties passed styleVariables)
    (free : r.idents.get? (Glsl.attributeName name) = none) :
    r.shader.attributes.get? (Glsl.attributeName name) = none :=
  h.declared_attributes.get?_eq_none.mpr fun p hp heq =>
    h.attributes_claimed.get?_eq_none.mp free p hp (Glsl.attributeName_eq_iff.mp heq)

theorem uniform_undeclared (h : r.Tables others properties passed styleVariables)
    (free : r.idents.get? (Glsl.uniformName name) = none) :
    r.shader.uniforms.get? (Glsl.uniformName name) = none := by
  rw [← OrderedMap.get?_without (h.apart name)]
  exact h.declared_uniforms.get?_eq_none.mpr fun p hp heq =>
    h.uniforms_claimed.get?_eq_none.mp free p hp (Glsl.uniformName_eq_iff.mp heq)

/-- A property is registered exactly where it goes together with the earlier ones. -/
theorem registerAttribute (h : r.Tables others properties passed styleVariables) (path : Path)
    (name : String) (type : Ty) :
    Ends (Registry.registerAttribute path name type) r
      (fun a r' => a = attributeOf passed (name, type) ∧
        r'.Tables others (properties ++ [(name, type)]) passed styleVariables)
      (¬Coherent (properties ++ [(name, type)])) := by
  cases hget : r.attributes.get? name with
  | some known =>
    obtain ⟨p, hp, rfl, rfl⟩ := h.attributes.get?_eq_some hget
    by_cases htype : p.2 = type
    · subst htype
      exact .of_ok (registerAttribute_known hget rfl) ⟨rfl, h.again_property hp⟩
    · refine .of_error (registerAttribute_conflict hget htype) fun hcoherent => ?_
      exact htype (hcoherent.one_type (q := (p.1, type)) (by simp [hp]) (by simp) rfl)
  | none =>
    have hnew := h.attributes.get?_eq_none.mp hget
    cases hident : r.idents.get? (Glsl.attributeName name) with
    | some previous =>
      obtain ⟨p, hp, rfl, hmangle⟩ := (h.attributes_claimed name previous).mp hident
      refine .of_error (registerAttribute_clash hget hident (hnew p hp)) fun hcoherent => ?_
      exact hcoherent.apart (q := (name, type)) (by simp [hp]) (by simp) (hnew p hp) hmangle
    | none =>
      have hapart := h.attributes_claimed.get?_eq_none.mp hident
      have hdecl := h.attribute_undeclared hident
      have hnot : (name, type) ∉ passed := fun hmem => hnew _ (h.passed_subset hmem) rfl
      refine .of_ok (registerAttribute_new hget hident hdecl) ⟨?_, h.new_property hapart⟩
      rw [attributeOf, if_neg hnot]

/-- The fragment shader can read every property that is registered. -/
theorem property (h : r.Tables others properties passed styleVariables) (path : Path)
    (name : String) (type : Ty) (stage : Stage) :
    Ends (Registry.property path name type stage) r
      (fun _ r' => r'.Tables others (properties ++ [(name, type)])
        (passed ++ stage.passedOn [(name, type)]) styleVariables)
      (¬Coherent (properties ++ [(name, type)])) := by
  rcases hreg : (Registry.registerAttribute path name type).run.run r with ⟨result, r₁⟩
  have hregistered := h.registerAttribute path name type
  rw [Ends, hreg] at hregistered
  cases result with
  | error i =>
    have hfails : (Registry.property path name type stage).run.run r = (.error i, r₁) := by
      rw [Registry.property, run_bind, hreg]
    exact .of_error hfails hregistered
  | ok known =>
    obtain ⟨rfl, h₁⟩ := hregistered
    cases stage with
    | vertex =>
      have hends : (Registry.property path name type .vertex).run.run r =
          (.ok (Glsl.attributeName name), r₁) := by
        rw [Registry.property, run_bind_ok hreg]
        rfl
      rw [Stage.passedOn, List.append_nil]
      exact .of_ok hends h₁
    | fragment =>
      by_cases hmem : (name, type) ∈ passed
      · have hvarying : (attributeOf passed (name, type)).varying =
            some (Glsl.varyingName name) := if_pos hmem
        have hends : (Registry.property path name type .fragment).run.run r =
            (.ok (Glsl.varyingName name), r₁) := by
          rw [Registry.property, run_bind_ok hreg]
          simp only [hvarying]
          rfl
        exact .of_ok hends (h₁.again_varying hmem)
      · have hfirst : (attributeOf passed (name, type)).varying = none := if_neg hmem
        have hmangle (p : String × Ty) (hp : p ∈ passed) :
            Glsl.mangle p.1 ≠ Glsl.mangle name := fun same =>
          hmem (h₁.coherent_properties.eq_of_mangle (h₁.passed_subset hp)
            (q := (name, type)) (by simp) same ▸ hp)
        have hident := h₁.varyings_claimed.get?_eq_none.mpr hmangle
        have hdecl : r₁.shader.varyings.get? (Glsl.varyingName name) = none :=
          h₁.declared_varyings.get?_eq_none.mpr fun p hp heq =>
            hmangle p hp (Glsl.varyingName_eq_iff.mp heq)
        exact .of_ok (property_new_varying hreg hfirst hident hdecl)
          ((h₁.withHelper type).new_varying (by simp) hmem)

/-- A variable is registered exactly where it goes together with the earlier ones. -/
theorem styleVariable (h : r.Tables others properties passed styleVariables) (path : Path)
    (name : String) (type : Ty) :
    Ends (Registry.styleVariable path name type) r
      (fun _ r' => r'.Tables others properties passed (styleVariables ++ [(name, type)]))
      (¬Coherent (styleVariables ++ [(name, type)])) := by
  cases hget : r.vars.get? name with
  | some v =>
    obtain ⟨p, hp, rfl, rfl⟩ := h.vars.get?_eq_some hget
    by_cases htype : p.2 = type
    · subst htype
      exact .of_ok (styleVariable_known hget rfl) (h.again_variable hp)
    · refine .of_error (styleVariable_conflict hget htype) fun hcoherent => ?_
      exact htype (hcoherent.one_type (q := (p.1, type)) (by simp [hp]) (by simp) rfl)
  | none =>
    have hnew := h.vars.get?_eq_none.mp hget
    cases hident : r.idents.get? (Glsl.uniformName name) with
    | some previous =>
      obtain ⟨p, hp, rfl, hmangle⟩ := (h.uniforms_claimed name previous).mp hident
      refine .of_error (styleVariable_clash hget hident (hnew p hp)) fun hcoherent => ?_
      exact hcoherent.apart (q := (name, type)) (by simp [hp]) (by simp) (hnew p hp) hmangle
    | none =>
      have hapart := h.uniforms_claimed.get?_eq_none.mp hident
      have hdecl := h.uniform_undeclared hident
      exact .of_ok (styleVariable_new hget hident hdecl) (h.new_variable hapart hdecl)

end Tables

end Registry

end ShaderStyle
