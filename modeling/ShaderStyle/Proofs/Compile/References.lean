import ShaderStyle.Proofs.Compile.FragmentCopies

/-! What the channels of a style refer to is what the tables of its result list. -/
namespace ShaderStyle

open Compilation

section

variable {s : Style} {store : Option Bindings} {r : Result} {log : List LogEntry}

/-- A compilation leaves the records of what its channels ask for. -/
theorem records_of_compile (h : compile s store = (.ok r, log)) :
    ∃ registry : Registry, registry.Records [textureUniform] (s.requests r.vars) ∧
      r.shader = registry.shader ∧ r.attributes = registry.attributes.values ∧
      r.uniforms = registry.vars.values := by
  obtain ⟨registry, htrace, -, hshader, hattributes, huniforms, -⟩ := compile_ok h
  have hrecords := htrace.records_all
  rw [flatMap_requests, channels_styleEvents] at hrecords
  exact ⟨registry, hrecords, hshader, hattributes, huniforms⟩

theorem Style.mem_properties_requests {vars : Bindings} {p : String × Ty} :
    p ∈ (s.requests vars).properties ↔ ∃ ch ∈ s.channels, p ∈ (ch.expr vars).properties := by
  rw [requests, Requests.properties_ofCalls, List.flatMap_map, List.mem_flatMap]
  rfl

theorem Style.mem_passed_requests {vars : Bindings} {p : String × Ty} :
    p ∈ (s.requests vars).passed ↔
      ∃ ch ∈ s.channels, ch.stage = .fragment ∧ p ∈ (ch.expr vars).properties := by
  rw [requests, Requests.passed_ofCalls, List.filter_map, List.flatMap_map, List.mem_flatMap]
  constructor
  · rintro ⟨ch, hmem, hp⟩
    obtain ⟨hch, hstage⟩ := List.mem_filter.mp hmem
    exact ⟨ch, hch, of_decide_eq_true hstage, hp⟩
  · rintro ⟨ch, hch, hstage, hp⟩
    exact ⟨ch, List.mem_filter.mpr ⟨hch, decide_eq_true hstage⟩, hp⟩

theorem Style.mem_styleVariables_requests {vars : Bindings} {p : String × Ty} :
    p ∈ (s.requests vars).styleVariables ↔
      ∃ ch ∈ s.channels, p ∈ (ch.expr vars).styleVariables := by
  rw [requests, Requests.styleVariables_ofCalls, List.flatMap_map, List.mem_flatMap]
  rfl

/-- The attribute of a property that a channel reads, found by its name. -/
theorem attribute?_of_property (h : compile s store = (.ok r, log)) {ch : Channel}
    (hch : ch ∈ s.channels) {p : String × Ty} (hp : p ∈ (ch.expr r.vars).properties) :
    r.attribute? p.1 = some (Registry.attributeOf (s.requests r.vars).passed p) := by
  obtain ⟨registry, hrecords, -, hattributes, -⟩ := records_of_compile h
  have htables := hrecords.tables
  have hmem := Style.mem_properties_requests.mpr ⟨ch, hch, hp⟩
  rw [htables.attributes.values] at hattributes
  have ha : Registry.attributeOf (s.requests r.vars).passed p ∈ r.attributes := by
    rw [hattributes]
    exact List.mem_map_of_mem (List.mem_eraseDups.mpr hmem)
  have hnodup : (r.attributes.map Attribute.name).Nodup := by
    rw [hattributes, List.map_map]
    exact htables.coherent_properties.nodup_map fun p q same => congrArg Glsl.mangle same
  exact find?_key_of_nodup hnodup ha

/-- The uniforms are those of the variables that channels refer to. -/
theorem mem_uniforms_iff (h : compile s store = (.ok r, log)) {u : Variable} :
    u ∈ r.uniforms ↔ ∃ ch ∈ s.channels, ∃ p ∈ (ch.expr r.vars).styleVariables,
      u = Registry.variableOf p := by
  obtain ⟨registry, hrecords, -, -, huniforms⟩ := records_of_compile h
  rw [huniforms, hrecords.tables.vars.values, List.mem_map]
  constructor
  · rintro ⟨p, hp, rfl⟩
    obtain ⟨ch, hch, hp⟩ := Style.mem_styleVariables_requests.mp (List.mem_eraseDups.mp hp)
    exact ⟨ch, hch, p, hp, rfl⟩
  · rintro ⟨ch, hch, p, hp, rfl⟩
    exact ⟨p, List.mem_eraseDups.mpr (Style.mem_styleVariables_requests.mpr ⟨ch, hch, hp⟩), rfl⟩

/-- The uniform of a variable that a channel refers to, found by its identifier. -/
theorem uniform?_of_styleVariable (h : compile s store = (.ok r, log)) {ch : Channel}
    (hch : ch ∈ s.channels) {p : String × Ty} (hp : p ∈ (ch.expr r.vars).styleVariables) :
    r.uniform? (Glsl.uniformName p.1) = some (Registry.variableOf p) := by
  obtain ⟨registry, hrecords, -, -, huniforms⟩ := records_of_compile h
  have htables := hrecords.tables
  have hu : Registry.variableOf p ∈ r.uniforms := (mem_uniforms_iff h).mpr ⟨ch, hch, p, hp, rfl⟩
  have hnodup : (r.uniforms.map Variable.ident).Nodup := by
    rw [huniforms, htables.vars.values, List.map_map]
    exact htables.coherent_variables.nodup_map fun p q same => Glsl.uniformName_eq_iff.mp same
  exact find?_key_of_nodup hnodup hu

/-- The varyings are those of the properties that the fragment shader reads. -/
theorem mem_varyings_iff (h : compile s store = (.ok r, log)) {v : Varying} :
    v ∈ r.shader.varyings.values ↔ ∃ ch ∈ s.channels, ch.stage = .fragment ∧
      ∃ p ∈ (ch.expr r.vars).properties, v = Registry.passing p.1 p.2 := by
  obtain ⟨registry, hrecords, hshader, -⟩ := records_of_compile h
  rw [hshader, hrecords.tables.declared_varyings.values, List.mem_map]
  constructor
  · rintro ⟨p, hp, rfl⟩
    obtain ⟨ch, hch, hstage, hp⟩ := Style.mem_passed_requests.mp (List.mem_eraseDups.mp hp)
    exact ⟨ch, hch, hstage, p, hp, rfl⟩
  · rintro ⟨ch, hch, hstage, p, hp, rfl⟩
    exact ⟨p, List.mem_eraseDups.mpr (Style.mem_passed_requests.mpr ⟨ch, hch, hstage, hp⟩), rfl⟩

end

end ShaderStyle
