import ShaderStyle.Proofs.Compile.References

/-! Which names of a style get identifiers that the code of its shaders already uses. -/
namespace ShaderStyle

open Compilation

/-- The varyings that the renderer provides: the place in the quad and in the image. -/
def providedVaryings : List String := ["v_quadCoord", "v_texCoord"]

/-- The identifiers that compiling writes into expressions and that stand for no reference. -/
def reservedIdents : List String :=
  Glsl.providedUniforms ++ [textureUniform, Glsl.unpackFunctionName] ++ providedVaryings

/-- The identifiers of the references of a style. -/
def Result.referenceIdents (r : Result) : List String :=
  r.attributes.map Attribute.ident ++ (r.uniforms.map Variable.ident ++
    r.shader.varyings.values.map Varying.name)

/-- No identifier is reserved that starts like those of attributes. -/
theorem attributeName_notMem_reserved (name : String) :
    Glsl.attributeName name ∉ reservedIdents := by
  have hstart : ∀ ident ∈ reservedIdents, ident.toList[0]? ≠ some 'a' := by decide
  intro hmem
  apply hstart _ hmem
  rw [Glsl.toList_attributeName]
  rfl

theorem uniformName_notMem_reserved (name : String) :
    Glsl.uniformName name ∉ reservedIdents := by
  have hstart : ∀ ident ∈ reservedIdents, ident.toList.take 4 ≠ ['u', '_', 'v', 'a'] := by decide
  intro hmem
  apply hstart _ hmem
  rw [Glsl.toList_uniformName]
  rfl

/-- The name of a varying that comes from one name only. -/
theorem varyingName_eq_iff_of_plain {name tail : String}
    (plain : tail.toList.all Char.isAlphanum = true) :
    Glsl.varyingName name = "v_" ++ tail ↔ name = tail := by
  have htail : "v_" ++ tail = Glsl.varyingName tail := by
    rw [Glsl.varyingName, (Glsl.mangle_eq_iff plain).mpr rfl]
  rw [htail, Glsl.varyingName_eq_iff, (Glsl.mangle_eq_iff plain).mpr (rfl : tail = tail),
    Glsl.mangle_eq_iff plain]

/-- The varyings of the renderer are reserved, and start like those of properties. -/
theorem varyingName_mem_reserved {name : String} (h : Glsl.varyingName name ∈ reservedIdents) :
    name = "quadCoord" ∨ name = "texCoord" := by
  have hstart : ∀ ident ∈ reservedIdents, ident.toList[0]? = some 'v' →
      ident = "v_" ++ "quadCoord" ∨ ident = "v_" ++ "texCoord" := by decide
  have hfirst : (Glsl.varyingName name).toList[0]? = some 'v' := by
    rw [Glsl.toList_varyingName]
    rfl
  rcases hstart _ h hfirst with hquad | htex
  · exact Or.inl ((varyingName_eq_iff_of_plain (by decide)).mp hquad)
  · exact Or.inr ((varyingName_eq_iff_of_plain (by decide)).mp htex)

/-- Whether an expression of the fragment shader reads the property. -/
def Style.FragmentReads (s : Style) (vars : Bindings) (name : String) : Prop :=
  ∃ ch ∈ s.channels, ch.stage = .fragment ∧ ∃ type, (name, type) ∈ (ch.expr vars).properties

section

variable {s : Style} {store : Option Bindings} {r : Result} {log : List LogEntry} {ident : String}

theorem mem_referenceIdents_cases (h : compile s store = (.ok r, log))
    (hident : ident ∈ r.referenceIdents) :
    (∃ name, ident = Glsl.attributeName name) ∨ (∃ name, ident = Glsl.uniformName name) ∨
      ∃ name, ident = Glsl.varyingName name ∧ s.FragmentReads r.vars name := by
  obtain ⟨registry, hrecords, -, hattributes, huniforms⟩ := records_of_compile h
  rcases List.mem_append.mp hident with hident | hident
  · rw [hattributes, hrecords.tables.attributes.values, List.map_map] at hident
    obtain ⟨p, -, rfl⟩ := List.mem_map.mp hident
    exact Or.inl ⟨p.1, rfl⟩
  rcases List.mem_append.mp hident with hident | hident
  · rw [huniforms, hrecords.tables.vars.values, List.map_map] at hident
    obtain ⟨p, -, rfl⟩ := List.mem_map.mp hident
    exact Or.inr (Or.inl ⟨p.1, rfl⟩)
  · obtain ⟨v, hv, rfl⟩ := List.mem_map.mp hident
    obtain ⟨ch, hch, hstage, p, hp, rfl⟩ := (mem_varyings_iff h).mp hv
    exact Or.inr (Or.inr ⟨p.1, rfl, ch, hch, hstage, p.2, hp⟩)

theorem varyingName_mem_referenceIdents (h : compile s store = (.ok r, log)) {name : String}
    (hreads : s.FragmentReads r.vars name) : Glsl.varyingName name ∈ r.referenceIdents := by
  obtain ⟨ch, hch, hstage, type, hp⟩ := hreads
  have hv : Registry.passing name type ∈ r.shader.varyings.values :=
    (mem_varyings_iff h).mpr ⟨ch, hch, hstage, (name, type), hp, rfl⟩
  exact List.mem_append_right _ (List.mem_append_right _ (List.mem_map_of_mem hv))

/-- In a compiled style, no reference gets a reserved identifier, but for the properties `quadCoord`
and `texCoord`: where the fragment shader reads one of them, its varying is that of the renderer. -/
theorem compile_captures_iff (h : compile s store = (.ok r, log))
    (hident : ident ∈ reservedIdents) :
    ident ∈ r.referenceIdents ↔
      ident = "v_quadCoord" ∧ s.FragmentReads r.vars "quadCoord" ∨
        ident = "v_texCoord" ∧ s.FragmentReads r.vars "texCoord" := by
  constructor
  · intro hreference
    rcases mem_referenceIdents_cases h hreference with ⟨name, rfl⟩ | ⟨name, rfl⟩ | hvarying
    · exact absurd hident (attributeName_notMem_reserved name)
    · exact absurd hident (uniformName_notMem_reserved name)
    · obtain ⟨name, rfl, hreads⟩ := hvarying
      rcases varyingName_mem_reserved hident with rfl | rfl
      · exact Or.inl ⟨by decide, hreads⟩
      · exact Or.inr ⟨by decide, hreads⟩
  · rintro (⟨rfl, hreads⟩ | ⟨rfl, hreads⟩)
    · exact varyingName_mem_referenceIdents h hreads
    · exact varyingName_mem_referenceIdents h hreads

end

/-- An image that is turned by one property and faded by another. -/
private def spinner : Style where
  symbol := some {
    symbolType := "image"
    src := "icon.png"
    rotation := .list [.text "get", .text "quadCoord"]
    opacity := .list [.text "get", .text "texCoord"] }

/-- Only what the fragment shader reads gets in the way of the renderer. -/
theorem compile_captures_iff_spinner :
    ∃ r log, compile spinner none = (.ok r, log) ∧
      r.referenceIdents = ["a_quadCoord", "a_texCoord", "v_texCoord"] ∧
      spinner.FragmentReads r.vars "texCoord" ∧ ¬spinner.FragmentReads r.vars "quadCoord" := by
  have hcompile : (match (compile spinner none).1 with
      | .ok r => decide (r.referenceIdents = ["a_quadCoord", "a_texCoord", "v_texCoord"])
      | .error _ => false) = true := by decide +kernel
  rcases hrun : compile spinner none with ⟨outcome, log⟩
  rw [hrun] at hcompile
  cases outcome with
  | error is => cases hcompile
  | ok r =>
    have hidents := of_decide_eq_true hcompile
    have htex := compile_captures_iff hrun (show "v_texCoord" ∈ reservedIdents by decide)
    have hquad := compile_captures_iff hrun (show "v_quadCoord" ∈ reservedIdents by decide)
    rw [hidents] at htex hquad
    refine ⟨r, log, rfl, hidents, ?_, fun hreads => ?_⟩
    · simpa using htex.mp (by decide)
    · exact absurd (hquad.mpr (Or.inl ⟨rfl, hreads⟩)) (by decide)

/-- Circles that fade with a property. -/
private def fadingCircle : Style where
  symbol := some {
    symbolType := "circle"
    opacity := .list [.text "get", .text "quadCoord"] }

/-- The shape of a circle is computed from the place in the quad, and a property is passed on under
the same identifier. -/
theorem compile_captures_quadCoord :
    ∃ r log, compile fadingCircle none = (.ok r, log) ∧
      r.shader.varyings.values = [⟨"v_quadCoord", "float", "a_quadCoord"⟩] ∧
      r.shader.slots .symbolColor = "vec4(vec4(1.0, 1.0, 1.0, 1.0).rgb, " ++
        "vec4(1.0, 1.0, 1.0, 1.0).a * v_quadCoord * (1.0-smoothstep(1.-4./vec2(1.0).x,1.," ++
        "dot(v_quadCoord-.5,v_quadCoord-.5)*4.)))" ∧
      ∃ ident ∈ reservedIdents, ident ∈ r.referenceIdents := by
  have hcompile : (match (compile fadingCircle none).1 with
      | .ok r => decide (
          r.shader.varyings.values = [⟨"v_quadCoord", "float", "a_quadCoord"⟩] ∧
          r.shader.slots .symbolColor = "vec4(vec4(1.0, 1.0, 1.0, 1.0).rgb, " ++
            "vec4(1.0, 1.0, 1.0, 1.0).a * v_quadCoord * (1.0-smoothstep(1.-4./vec2(1.0).x,1.," ++
            "dot(v_quadCoord-.5,v_quadCoord-.5)*4.)))")
      | .error _ => false) = true := by decide +kernel
  rcases hrun : compile fadingCircle none with ⟨outcome, log⟩
  rw [hrun] at hcompile
  cases outcome with
  | error is => cases hcompile
  | ok r =>
    obtain ⟨hvaryings, hslot⟩ := of_decide_eq_true hcompile
    refine ⟨r, log, rfl, hvaryings, hslot, "v_quadCoord", by decide, ?_⟩
    apply List.mem_append_right
    apply List.mem_append_right
    rw [hvaryings]
    exact List.mem_singleton.mpr rfl

end ShaderStyle
