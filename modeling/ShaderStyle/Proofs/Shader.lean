import ShaderStyle.Shader
import ShaderStyle.Proofs.OrderedMap

/-! Declarations of a shader: a declared name keeps its type. -/
namespace ShaderStyle.Shader

/-- The functions that a stage of the shader defines. -/
def functions (s : Shader) : Stage → List String
  | .vertex => s.vertexFunctions
  | .fragment => s.fragmentFunctions

theorem mem_addSource {sources : List String} {source f : String} :
    f ∈ addSource sources source ↔ f ∈ sources ∨ f = source := by
  unfold addSource
  split
  · next h =>
    constructor
    · exact Or.inl
    · rintro (hf | rfl)
      · exact hf
      · exact h
  · simp

theorem mem_functions_addFunction {s : Shader} {stage other : Stage} {source f : String}
    (h : f ∈ s.functions stage) : f ∈ (s.addFunction other source).functions stage := by
  cases stage <;> cases other <;> first | exact mem_addSource.mpr (Or.inl h) | exact h

theorem mem_functions_self (s : Shader) (stage : Stage) (source : String) :
    source ∈ (s.addFunction stage source).functions stage := by
  cases stage <;> exact mem_addSource.mpr (Or.inr rfl)

theorem functions_addFunction (s : Shader) (added stage : Stage) (source : String) :
    (s.addFunction added source).functions stage =
      if added = stage then addSource (s.functions stage) source else s.functions stage := by
  cases added <;> cases stage <;> rfl

theorem addFunction_of_mem {s : Shader} {stage : Stage} {source : String}
    (h : source ∈ s.functions stage) : s.addFunction stage source = s := by
  cases stage with
  | vertex =>
    have hmem : source ∈ s.vertexFunctions := h
    rw [addFunction, addSource, if_pos hmem]
  | fragment =>
    have hmem : source ∈ s.fragmentFunctions := h
    rw [addFunction, addSource, if_pos hmem]

/-- A declaration adds one name at most and keeps the others. -/
theorem declare_get? {family : String} {decls decls' : OrderedMap String String}
    {name type : String} (h : declare family decls name type = .ok decls') (other : String) :
    decls'.get? other = if other = name then some type else decls.get? other := by
  unfold declare at h
  split at h
  · cases h
    exact OrderedMap.get?_insert decls name other type
  · next previous hprevious =>
    split at h
    · next htype =>
      cases h
      split
      · next hname => rw [hname, hprevious, htype]
      · rfl
    · cases h

/-- A declared name stays declared with its type. -/
theorem declare_keeps {family : String} {decls decls' : OrderedMap String String}
    {name type other previous : String} (h : declare family decls name type = .ok decls')
    (hother : decls.get? other = some previous) : decls'.get? other = some previous := by
  unfold declare at h
  split at h
  · next hnone =>
    cases h
    have hne : other ≠ name := by
      rintro rfl
      rw [hnone] at hother
      cases hother
    rw [OrderedMap.get?_insert_other _ _ hne, hother]
  · split at h
    · cases h
      exact hother
    · cases h

variable {s s' : Shader}

theorem addAttribute_cases {name type : String} (h : s.addAttribute name type = .ok s') :
    ∃ attributes, declare "attribute" s.attributes name type = .ok attributes ∧
      s' = { s with attributes } := by
  unfold addAttribute at h
  cases hdeclare : declare "attribute" s.attributes name type with
  | error conflict =>
    rw [hdeclare] at h
    cases h
  | ok attributes =>
    rw [hdeclare] at h
    cases h
    exact ⟨attributes, rfl, rfl⟩

theorem addUniform_cases {name type : String} (h : s.addUniform name type = .ok s') :
    ∃ uniforms, declare "uniform" s.uniforms name type = .ok uniforms ∧
      s' = { s with uniforms } := by
  unfold addUniform at h
  cases hdeclare : declare "uniform" s.uniforms name type with
  | error conflict =>
    rw [hdeclare] at h
    cases h
  | ok uniforms =>
    rw [hdeclare] at h
    cases h
    exact ⟨uniforms, rfl, rfl⟩

theorem addVarying_cases {v : Varying} (h : s.addVarying v = .ok s') :
    (s.varyings.get? v.name = none ∧ s' = { s with varyings := s.varyings.insert v.name v }) ∨
      (s.varyings.get? v.name = some v ∧ s' = s) := by
  unfold addVarying at h
  split at h
  · next hnone =>
    cases h
    exact Or.inl ⟨hnone, rfl⟩
  · next previous hprevious =>
    split at h
    · next heq =>
      cases h
      exact Or.inr ⟨by rw [hprevious, heq], rfl⟩
    · cases h

theorem addVarying_eq {v : Varying} (h : s.addVarying v = .ok s') :
    s' = { s with varyings := s'.varyings } := by
  rcases addVarying_cases h with ⟨-, rfl⟩ | ⟨-, rfl⟩
  · rfl
  · rfl

theorem addVarying_get? {v : Varying} (h : s.addVarying v = .ok s') :
    s'.varyings.get? v.name = some v := by
  rcases addVarying_cases h with ⟨-, rfl⟩ | ⟨hsame, rfl⟩
  · exact OrderedMap.get?_insert_self _ _ _
  · exact hsame

theorem addVarying_mem {v : Varying} (h : s.addVarying v = .ok s') {entry : String × Varying}
    (hentry : entry ∈ s'.varyings.entries) : entry = (v.name, v) ∨ entry ∈ s.varyings.entries := by
  rcases addVarying_cases h with ⟨-, rfl⟩ | ⟨-, rfl⟩
  · exact OrderedMap.mem_entries_insert hentry
  · exact Or.inr hentry

theorem addVarying_keeps {v w : Varying} (h : s.addVarying v = .ok s') {ident : String}
    (hident : s.varyings.get? ident = some w) : s'.varyings.get? ident = some w := by
  rcases addVarying_cases h with ⟨hnone, rfl⟩ | ⟨-, rfl⟩
  · have hne : ident ≠ v.name := by
      rintro rfl
      rw [hnone] at hident
      cases hident
    exact (OrderedMap.get?_insert_other _ _ hne).trans hident
  · exact hident

end ShaderStyle.Shader
