import ShaderStyle.Proofs.Compile.Result
import ShaderStyle.Proofs.Emission.Records

/-! The tables of a result and the declarations of its shaders list the same things. -/
namespace ShaderStyle

open Compilation (textureUniform Event Trace Channel styleEvents)

theorem uniformName_ne_textureUniform (name : String) : Glsl.uniformName name ≠ textureUniform := by
  intro h
  have hlist := congrArg String.toList h
  rw [Glsl.toList_uniformName] at hlist
  cases hlist

/-- The declarations of the sampler of images. -/
def samplers (uniforms : OrderedMap String String) : List (String × String) :=
  uniforms.entries.filter fun e => e.1 = textureUniform

section Samplers

variable {family name type : String} {uniforms uniforms' : OrderedMap String String}

theorem samplers_declare_other (hne : name ≠ textureUniform)
    (h : Shader.declare family uniforms name type = .ok uniforms') :
    samplers uniforms' = samplers uniforms := by
  unfold Shader.declare at h
  split at h
  · next hnone =>
    cases h
    rw [samplers, OrderedMap.entries_insert_new hnone, List.filter_append]
    simp [samplers, hne]
  · split at h
    · cases h
      rfl
    · cases h

theorem samplers_eq_nil (h : uniforms.get? textureUniform = none) : samplers uniforms = [] := by
  rw [samplers, List.filter_eq_nil_iff]
  intro e he heq
  have hne := List.lookup_eq_none_iff.mp h e he
  simp only [of_decide_eq_true heq, bne_self_eq_false, Bool.false_eq_true] at hne

/-- However often it is declared, there is one sampler. -/
theorem samplers_declare_texture {declared : Bool}
    (before : samplers uniforms = if declared then [(textureUniform, "sampler2D")] else [])
    (h : Shader.declare family uniforms textureUniform "sampler2D" = .ok uniforms') :
    samplers uniforms' = [(textureUniform, "sampler2D")] := by
  unfold Shader.declare at h
  split at h
  · next hnone =>
    cases h
    have hnil := samplers_eq_nil hnone
    rw [samplers] at hnil ⊢
    rw [OrderedMap.entries_insert_new hnone, List.filter_append, hnil]
    simp
  · next previous hsome =>
    split at h
    · next hsame =>
      cases h
      have hmem : (textureUniform, previous) ∈ samplers uniforms :=
        List.mem_filter.mpr ⟨OrderedMap.mem_entries_of_get? hsome, decide_eq_true rfl⟩
      cases declared with
      | true => exact before
      | false =>
        rw [before] at hmem
        cases hmem
    · cases h

end Samplers

namespace Registry

variable {allowed : Ty → Prop} {r r' : Registry}

/-- A registry declares no sampler. -/
theorem Step.samplers_eq (h : Step allowed r r') :
    samplers r'.shader.uniforms = samplers r.shader.uniforms := by
  cases h with
  | claim | category => rfl
  | unpack stage => cases stage <;> rfl
  | property name type shader _ _ declared =>
    obtain ⟨_, _, rfl⟩ := Shader.addAttribute_cases declared
    rfl
  | varying name known shader _ _ _ declared =>
    rw [Shader.addVarying_eq declared]
  | uniform name type shader _ _ declared =>
    obtain ⟨uniforms, hdeclare, rfl⟩ := Shader.addUniform_cases declared
    exact samplers_declare_other (uniformName_ne_textureUniform name) hdeclare

theorem Steps.samplers_eq (h : Steps allowed r r') :
    samplers r'.shader.uniforms = samplers r.shader.uniforms := by
  induction h with
  | refl => rfl
  | tail _ hstep ih => rw [hstep.samplers_eq, ih]

end Registry

namespace Compilation

variable {vars : Bindings} {r r' : Registry} {event : Event} {events : List Event} {qs : Requests}

def Event.isTextured : Event → Bool
  | .textured => true
  | _ => false

/-- What an event asks of the registry. -/
def Event.requests (vars : Bindings) : Event → Requests
  | .emitted ch => (ch.expr vars).requests ch.stage
  | .filled _ _ | .rotated _ | .textured => []

/-- What events ask for, the expressions of their channels refer to. -/
theorem exists_emitted_of_mem_requests {q : Stage × Reference}
    (h : q ∈ events.flatMap (Event.requests vars)) :
    ∃ ch, .emitted ch ∈ events ∧ q.2 ∈ (ch.expr vars).references := by
  obtain ⟨event, hevent, hq⟩ := List.mem_flatMap.mp h
  cases event with
  | emitted ch =>
    obtain ⟨ref, href, rfl⟩ := List.mem_map.mp hq
    exact ⟨ch, hevent, href⟩
  | filled | rotated | textured => cases hq

theorem Event.Step.samplers_eq (h : event.Step vars r r') (hr : r.Named) (declared : Bool)
    (before : samplers r.shader.uniforms =
      if declared then [(textureUniform, "sampler2D")] else []) :
    samplers r'.shader.uniforms =
      if declared || event.isTextured then [(textureUniform, "sampler2D")] else [] := by
  cases h with
  | emitted built ran =>
    rw [(emit_steps (Channel.wellTyped built) hr ran).samplers_eq, before]
    simp [Event.isTextured]
  | filled | rotated =>
    change samplers r.shader.uniforms = _
    simpa [Event.isTextured] using before
  | textured declared =>
    obtain ⟨uniforms, hdeclare, rfl⟩ := Shader.addUniform_cases declared
    simpa [Event.isTextured] using samplers_declare_texture before hdeclare

theorem Trace.samplers_eq (h : Trace vars r events r') (hr : r.Named) (declared : Bool)
    (before : samplers r.shader.uniforms =
      if declared then [(textureUniform, "sampler2D")] else []) :
    samplers r'.shader.uniforms =
      if declared || events.any Event.isTextured then [(textureUniform, "sampler2D")] else [] := by
  induction h generalizing declared with
  | nil => simpa using before
  | cons first _ ih =>
    rw [ih (first.named hr) _ (first.samplers_eq hr declared before), List.any_cons,
      Bool.or_assoc]

/-- Every event leaves the tables of what was asked for. -/
theorem Event.Step.records (h : event.Step vars r r') (hr : r.Records [textureUniform] qs) :
    r'.Records [textureUniform] (qs ++ event.requests vars) := by
  cases h with
  | @emitted ch e t _ built ran =>
    have hends := hr.emit (Channel.wellTyped built) ch.stage
    rw [Registry.Ends, ran] at hends
    rw [Event.requests, Channel.expr_eq built]
    exact hends
  | filled | rotated =>
    rw [Event.requests, List.append_nil]
    exact { hr with tables := { hr.tables with } }
  | textured declared =>
    rw [Event.requests, List.append_nil]
    have htables := hr.tables.addUniform (List.mem_singleton.mpr rfl) declared
    exact { hr with tables := htables }

theorem Trace.records (h : Trace vars r events r') (hr : r.Records [textureUniform] qs) :
    r'.Records [textureUniform] (qs ++ events.flatMap (Event.requests vars)) := by
  induction h generalizing qs with
  | nil => simpa using hr
  | cons first _ ih =>
    rw [List.flatMap_cons, ← List.append_assoc]
    exact ih (first.records hr)

/-- A registry that starts empty holds what the events asked for. -/
theorem Trace.records_all (h : Trace vars {} events r) :
    r.Records [textureUniform] (events.flatMap (Event.requests vars)) := by
  have hapart (name : String) : Glsl.uniformName name ∉ [textureUniform] := by
    rw [List.mem_singleton]
    exact uniformName_ne_textureUniform name
  exact h.records (Registry.records_fresh hapart)

theorem isTextured_symbolEvents (code : Channel → String) (s : Symbol) :
    (symbolEvents code s).any Event.isTextured = s.texture?.isSome := by
  unfold symbolEvents
  cases s.texture? with
  | none => rfl
  | some src => rfl

theorem isTextured_styleEvents (code : Channel → String) (s : Style) :
    (styleEvents code s).any Event.isTextured = (s.symbol.bind Symbol.texture?).isSome := by
  have hfilter : (if !s.filter.isNull then filterEvents code s.filter else []).any
      Event.isTextured = false := by
    cases s.filter.isNull <;> rfl
  have hstroke : (strokeEvents code s.strokeColor s.strokeWidth).any Event.isTextured = false := by
    unfold strokeEvents
    cases s.strokeColor.isNull <;> cases s.strokeWidth.isNull <;> rfl
  have hfill : (if !s.fillColor.isNull then fillEvents code s.fillColor else []).any
      Event.isTextured = false := by
    cases s.fillColor.isNull <;> rfl
  unfold styleEvents
  rw [List.any_append, List.any_append, List.any_append, hfilter, hstroke, hfill]
  cases s.symbol with
  | none => rfl
  | some sym =>
    simp only [isTextured_symbolEvents, Bool.false_or, Bool.or_false]
    rfl

end Compilation

theorem find?_key_of_nodup {α : Type} {key : α → String} {xs : List α} {x : α}
    (h : (xs.map key).Nodup) (hx : x ∈ xs) : xs.find? (fun y => key y == key x) = some x := by
  induction xs with
  | nil => cases hx
  | cons y xs ih =>
    rw [List.map_cons, List.nodup_cons] at h
    rcases List.mem_cons.mp hx with rfl | hx
    · simp
    · have hne : key y ≠ key x := fun heq => h.1 (heq ▸ List.mem_map_of_mem hx)
      rw [List.find?_cons_of_neg (by simpa using hne)]
      exact ih h.2 hx

/-- Coherent names stay distinct under everything that their identifiers tell apart. -/
theorem Coherent.nodup_map {names : List (String × Ty)} (h : Coherent names)
    {key : String × Ty → String} (apart : ∀ p q, key p = key q → Glsl.mangle p.1 = Glsl.mangle q.1) :
    (names.eraseDups.map key).Nodup := by
  rw [map_eraseDups fun p hp q hq same => h.eq_of_mangle hp hq (apart p q same)]
  exact nodup_eraseDups _

/-- The declaration of the sampler of images. -/
def samplerDeclaration : String := "sampler2D u_texture"

/-- The varying that carries an attribute: colors are unpacked on the way. -/
def Attribute.carrier (a : Attribute) : Varying where
  name := "v_" ++ Glsl.mangle a.name
  type := Glsl.typeName a.type
  expression :=
    if a.type = .color then "unpackColor(a_" ++ Glsl.mangle a.name ++ ")"
    else "a_" ++ Glsl.mangle a.name

theorem declaration_ne_sampler (type : Ty) (ident : String) :
    Glsl.storageTypeName type ++ " " ++ ident ≠ samplerDeclaration := by
  intro h
  have hlist := congrArg String.toList h
  rw [String.toList_append, String.toList_append] at hlist
  cases type with
  | array n =>
    have hvector : Glsl.storageTypeName (.array n) = "vec" ++ toString n := rfl
    rw [hvector, String.toList_append] at hlist
    cases hlist
  | _ => cases hlist

namespace Registry.Tables

variable {properties passed styleVariables : List (String × Ty)} {r : Registry} {declared : Bool}

theorem declarations_attributes {others : List String}
    (h : r.Tables others properties passed styleVariables) :
    Shader.declarations r.shader.attributes = r.attributes.values.map fun a =>
      Glsl.storageTypeName a.type ++ " a_" ++ Glsl.mangle a.name := by
  rw [Shader.declarations, h.declared_attributes, h.attributes.values, List.map_map, List.map_map]
  refine List.map_congr_left fun p _ => ?_
  have hname : " " ++ ("a_" ++ Glsl.mangle p.1) = " a_" ++ Glsl.mangle p.1 := by
    rw [← String.append_assoc]
    rfl
  change Glsl.storageTypeName p.2 ++ " " ++ ("a_" ++ Glsl.mangle p.1) =
    Glsl.storageTypeName p.2 ++ " a_" ++ Glsl.mangle p.1
  rw [String.append_assoc, hname, String.append_assoc]

/-- A uniform is either the sampler or the one of a variable. -/
theorem declaration_eq_sampler_iff (h : r.Tables [textureUniform] properties passed styleVariables)
    (sampled : samplers r.shader.uniforms =
      if declared then [(textureUniform, "sampler2D")] else [])
    {e : String × String} (he : e ∈ r.shader.uniforms.entries) :
    e.2 ++ " " ++ e.1 = samplerDeclaration ↔ e.1 = textureUniform := by
  constructor
  · intro heq
    by_contra hne
    have hmem : e ∈ (r.shader.uniforms.without [textureUniform]).entries :=
      List.mem_filter.mpr ⟨he, by simpa using hne⟩
    rw [h.declared_uniforms] at hmem
    obtain ⟨p, -, rfl⟩ := List.mem_map.mp hmem
    exact declaration_ne_sampler p.2 _ heq
  · intro hkey
    have hmem : e ∈ samplers r.shader.uniforms := List.mem_filter.mpr ⟨he, decide_eq_true hkey⟩
    rw [sampled] at hmem
    cases declared with
    | true =>
      obtain rfl := List.mem_singleton.mp hmem
      decide
    | false => cases hmem

theorem declarations_uniforms (h : r.Tables [textureUniform] properties passed styleVariables)
    (sampled : samplers r.shader.uniforms =
      if declared then [(textureUniform, "sampler2D")] else []) :
    (Shader.declarations r.shader.uniforms).filter (· ≠ samplerDeclaration) =
      r.vars.values.map fun u => Glsl.storageTypeName u.type ++ " " ++ u.ident := by
  have hfilter : r.shader.uniforms.entries.filter
      (fun e => e.2 ++ " " ++ e.1 ≠ samplerDeclaration) =
      (r.shader.uniforms.without [textureUniform]).entries := by
    refine List.filter_congr fun e he => ?_
    rw [decide_eq_decide, List.mem_singleton]
    exact not_congr (h.declaration_eq_sampler_iff sampled he)
  rw [Shader.declarations, List.filter_map]
  change (r.shader.uniforms.entries.filter
    (fun e => e.2 ++ " " ++ e.1 ≠ samplerDeclaration)).map _ = _
  rw [hfilter, h.declared_uniforms, h.vars.values, List.map_map, List.map_map]
  rfl

theorem sampler_mem_iff (h : r.Tables [textureUniform] properties passed styleVariables)
    (sampled : samplers r.shader.uniforms =
      if declared then [(textureUniform, "sampler2D")] else []) :
    samplerDeclaration ∈ Shader.declarations r.shader.uniforms ↔ declared = true := by
  constructor
  · intro hmem
    obtain ⟨e, he, heq⟩ := List.mem_map.mp hmem
    have hkey := (h.declaration_eq_sampler_iff sampled he).mp heq
    have hsampler : e ∈ samplers r.shader.uniforms :=
      List.mem_filter.mpr ⟨he, decide_eq_true hkey⟩
    rw [sampled] at hsampler
    cases declared with
    | true => rfl
    | false => cases hsampler
  · rintro rfl
    have hmem : (textureUniform, "sampler2D") ∈ samplers r.shader.uniforms := by
      rw [sampled]
      exact List.mem_singleton.mpr rfl
    exact List.mem_map.mpr ⟨_, (List.mem_filter.mp hmem).1, by decide⟩

theorem passing_eq_carrier (passed : List (String × Ty)) (p : String × Ty) :
    passing p.1 p.2 = (attributeOf passed p).carrier := by
  obtain ⟨name, type⟩ := p
  cases type with
  | color =>
    have htext : (Glsl.unpack (.name ("a_" ++ Glsl.mangle name))).text =
        "unpackColor(a_" ++ Glsl.mangle name ++ ")" := by
      change "unpackColor(" ++ ("a_" ++ Glsl.mangle name) ++ ")" = _
      rw [← String.append_assoc]
      rfl
    exact congrArg (Varying.mk _ _) htext
  | _ => rfl

/-- Each varying carries one attribute. -/
theorem carrier_of_varying {others : List String}
    (h : r.Tables others properties passed styleVariables) {v : Varying}
    (hv : v ∈ r.shader.varyings.values) :
    ∃ a ∈ r.attributes.values, v = a.carrier ∧
      ∀ b ∈ r.attributes.values, v.name = "v_" ++ Glsl.mangle b.name → b = a := by
  rw [h.declared_varyings.values] at hv
  obtain ⟨p, hp, rfl⟩ := List.mem_map.mp hv
  have hp := h.passed_subset (List.mem_eraseDups.mp hp)
  rw [h.attributes.values]
  refine ⟨attributeOf passed p, List.mem_map_of_mem (List.mem_eraseDups.mpr hp),
    passing_eq_carrier passed p, fun b hb hname => ?_⟩
  obtain ⟨q, hq, rfl⟩ := List.mem_map.mp hb
  have hmangle : Glsl.mangle p.1 = Glsl.mangle q.1 := Glsl.varyingName_eq_iff.mp hname
  rw [h.coherent_properties.eq_of_mangle hp (List.mem_eraseDups.mp hq) hmangle]

end Registry.Tables

/-- How the tables of a result go with the declarations of its shaders. -/
structure Result.TablesMatch (r : Result) : Prop where
  /-- Buffers are fed by position. -/
  attributes : Shader.declarations r.shader.attributes =
    r.attributes.map fun a => Glsl.storageTypeName a.type ++ " a_" ++ Glsl.mangle a.name
  uniforms : (Shader.declarations r.shader.uniforms).filter (· ≠ samplerDeclaration) =
    r.uniforms.map fun u => Glsl.storageTypeName u.type ++ " " ++ u.ident
  sampler : samplerDeclaration ∈ Shader.declarations r.shader.uniforms ↔
    ∃ src, ("u_texture", src) ∈ r.textures
  attribute_names : (r.attributes.map Attribute.name).Nodup
  variable_names : (r.uniforms.map Variable.name).Nodup
  uniform_names : (r.uniforms.map Variable.ident).Nodup
  attribute?_eq {a : Attribute} (ha : a ∈ r.attributes) : r.attribute? a.name = some a
  uniform?_eq {u : Variable} (hu : u ∈ r.uniforms) : r.uniform? u.ident = some u
  varyings {v : Varying} (hv : v ∈ r.shader.varyings.values) :
    ∃ a ∈ r.attributes, v = a.carrier ∧
      ∀ b ∈ r.attributes, v.name = "v_" ++ Glsl.mangle b.name → b = a

/-- In every compiled style the tables and the declarations match. -/
theorem compile_tablesMatch {s : Style} {store : Option Bindings} {r : Result}
    {log : List LogEntry} (h : compile s store = (.ok r, log)) : r.TablesMatch := by
  obtain ⟨registry, htrace, -, hshader, hattributes, huniforms, -⟩ := compile_ok h
  have hfresh : Registry.Records [textureUniform] [] {} := Registry.records_fresh fun name => by
    rw [List.mem_singleton]
    exact uniformName_ne_textureUniform name
  have htables := (htrace.records hfresh).tables
  have hsampled := htrace.samplers_eq (Registry.named_fresh {}) false rfl
  rw [Bool.false_or, Compilation.isTextured_styleEvents] at hsampled
  have hattribute_names : (r.attributes.map Attribute.name).Nodup := by
    rw [hattributes, htables.attributes.values, List.map_map]
    exact htables.coherent_properties.nodup_map fun p q same => congrArg Glsl.mangle same
  have huniform_names : (r.uniforms.map Variable.ident).Nodup := by
    rw [huniforms, htables.vars.values, List.map_map]
    exact htables.coherent_variables.nodup_map fun p q same => Glsl.uniformName_eq_iff.mp same
  exact {
    attributes := by
      rw [hshader, hattributes]
      exact htables.declarations_attributes
    uniforms := by
      rw [hshader, huniforms]
      exact htables.declarations_uniforms hsampled
    sampler := by
      rw [hshader, htables.sampler_mem_iff hsampled, textures_of_compile h]
      cases s.symbol.bind Symbol.texture? with
      | none => simp
      | some src => simp [textureUniform]
    attribute_names := hattribute_names
    variable_names := by
      rw [huniforms, htables.vars.values, List.map_map]
      exact htables.coherent_variables.nodup_map fun p q same => congrArg Glsl.mangle same
    uniform_names := huniform_names
    attribute?_eq := fun ha => find?_key_of_nodup hattribute_names ha
    uniform?_eq := fun hu => find?_key_of_nodup huniform_names hu
    varyings := fun hv => by
      rw [hshader] at hv
      rw [hattributes]
      exact htables.carrier_of_varying hv }

/-- An image with a tint of the feature and a size that can be set. -/
private def icon : Style where
  symbol := some {
    symbolType := "image"
    src := "icon.png"
    size := .list [.text "var", .text "scale"]
    color := .list [.text "get", .text "tint"] }
  vars := some (.ofList [("scale", .double (.finite 2))])

theorem compile_tablesMatch_icon :
    ∃ r log, compile icon none = (.ok r, log) ∧
      Shader.declarations r.shader.attributes = ["vec2 a_tint"] ∧
      Shader.declarations r.shader.uniforms = ["float u_var_scale", "sampler2D u_texture"] ∧
      r.TablesMatch := by
  have hcompile : (match (compile icon none).1 with
      | .ok r => decide (Shader.declarations r.shader.attributes = ["vec2 a_tint"] ∧
          Shader.declarations r.shader.uniforms = ["float u_var_scale", "sampler2D u_texture"])
      | .error _ => false) = true := by decide +kernel
  rcases hrun : compile icon none with ⟨outcome, log⟩
  rw [hrun] at hcompile
  cases outcome with
  | error is => cases hcompile
  | ok r =>
    obtain ⟨hattributes, huniforms⟩ := of_decide_eq_true hcompile
    exact ⟨r, log, rfl, hattributes, huniforms, compile_tablesMatch hrun⟩

end ShaderStyle
