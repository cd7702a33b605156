import ShaderStyle.Proofs.Categories
import ShaderStyle.Proofs.Registry.Steps

/-! References of expressions to the registry: what registering one does, and the code for it. -/
namespace ShaderStyle

namespace Registry

/-- The names in the tables are the ones that the identifiers are made from. -/
structure Named (r : Registry) : Prop where
  ident_eq {name : String} {a : Attribute} (entry : r.attributes.get? name = some a) :
    a.ident = Glsl.attributeName name
  varying_eq {name : String} {a : Attribute} {v : String} (entry : r.attributes.get? name = some a)
    (declared : a.varying = some v) : v = Glsl.varyingName name
  uniform_eq {name : String} {v : Variable} (entry : r.vars.get? name = some v) :
    v.ident = Glsl.uniformName name

variable {allowed : Ty → Prop} {r r' : Registry}

/-- A registry without entries is named well, whatever its shader declares. -/
theorem named_fresh (shader : Shader) : Named { shader } where
  ident_eq entry := by cases entry
  varying_eq entry := by cases entry
  uniform_eq entry := by cases entry

theorem Step.named (h : Step allowed r r') (hr : r.Named) : r'.Named := by
  cases h with
  | claim | unpack | category => exact ⟨hr.ident_eq, hr.varying_eq, hr.uniform_eq⟩
  | property name type shader =>
    refine ⟨fun {other a} entry => ?_, fun {other a v} entry declared => ?_, hr.uniform_eq⟩
    · rw [OrderedMap.get?_insert] at entry
      split at entry
      · next hname =>
        subst hname
        cases entry
        rfl
      · exact hr.ident_eq entry
    · rw [OrderedMap.get?_insert] at entry
      split at entry
      · cases entry
        cases declared
      · exact hr.varying_eq entry declared
  | varying name known shader registered =>
    refine ⟨fun {other a} entry => ?_, fun {other a v} entry declared => ?_, hr.uniform_eq⟩
    · rw [OrderedMap.get?_insert] at entry
      split at entry
      · next hname =>
        subst hname
        have hident : known.ident = Glsl.attributeName other := hr.ident_eq registered
        cases entry
        exact hident
      · exact hr.ident_eq entry
    · rw [OrderedMap.get?_insert] at entry
      split at entry
      · next hname =>
        subst hname
        cases entry
        cases declared
        rfl
      · exact hr.varying_eq entry declared
  | uniform name type shader =>
    refine ⟨hr.ident_eq, hr.varying_eq, fun {other v} entry => ?_⟩
    rw [OrderedMap.get?_insert] at entry
    split at entry
    · next hname =>
      subst hname
      cases entry
      rfl
    · exact hr.uniform_eq entry

theorem Steps.named (h : Steps allowed r r') (hr : r.Named) : r'.Named :=
  h.keeps Named Step.named hr

theorem Step.grows (h : Step allowed r r') : r.categories.Grows r'.categories := by
  cases h with
  | category s => exact Categories.grows_register _ s
  | _ => exact .refl

theorem Steps.grows (h : Steps allowed r r') : r.categories.Grows r'.categories := by
  induction h with
  | refl => exact .refl
  | tail _ hstep ih => exact ih.trans hstep.grows

/-- The entry of a property stays; only its varying may be added. -/
theorem Step.keeps_attribute (h : Step allowed r r') {name : String} {a : Attribute}
    (entry : r.attributes.get? name = some a) :
    ∃ a', r'.attributes.get? name = some a' ∧ a'.type = a.type ∧ a'.ident = a.ident ∧
      (∀ v, a.varying = some v → a'.varying = some v) := by
  cases h with
  | claim | unpack | category | uniform => exact ⟨a, entry, rfl, rfl, fun _ => id⟩
  | property other type shader _ new =>
    have hne : name ≠ other := by
      rintro rfl
      rw [new] at entry
      cases entry
    exact ⟨a, by rw [OrderedMap.get?_insert_other _ _ hne, entry], rfl, rfl, fun _ => id⟩
  | varying other known shader registered first =>
    by_cases hname : name = other
    · subst hname
      rw [registered] at entry
      cases entry
      refine ⟨_, OrderedMap.get?_insert_self _ _ _, rfl, rfl, fun v hv => ?_⟩
      rw [first] at hv
      cases hv
    · exact ⟨a, by rw [OrderedMap.get?_insert_other _ _ hname, entry], rfl, rfl, fun _ => id⟩

theorem Step.keeps_variable (h : Step allowed r r') {name : String} {v : Variable}
    (entry : r.vars.get? name = some v) : r'.vars.get? name = some v := by
  cases h with
  | uniform other type shader _ new =>
    have hne : name ≠ other := by
      rintro rfl
      rw [new] at entry
      cases entry
    rw [OrderedMap.get?_insert_other _ _ hne, entry]
  | _ => exact entry

end Registry

/-- How properties are read, by their names and types. -/
abbrev Glsl.Reading := String → Ty → Glsl.Term

/-- What an expression asks of the registry, with the place that an error names. -/
inductive Reference where
  | property (path : Path) (name : String) (type : Ty)
  | styleVariable (path : Path) (name : String) (type : Ty)
  | text (path : Path) (s : String)
  /-- A literal, which has to be finite. -/
  | number (path : Path) (x : Double)

namespace Reference

/-- The type of the property or the variable is one of those that are allowed. -/
def Typed (allowed : Ty → Prop) : Reference → Prop
  | .property _ _ type | .styleVariable _ _ type => allowed type
  | .text _ _ | .number _ _ => True

/-- Registers a reference and gives its code. -/
def emit (stage : Stage) : Reference → RegistryM Glsl.Term
  | .property path name type => Emission.emitGet stage path name type
  | .styleVariable path name type => Emission.emitVar stage path name type
  | .text path s => do Emission.literal path (Glsl.number (.ofInt (← Registry.category s)))
  | .number path x => Emission.literal path (Glsl.number x)

/-- The identifier of a property in a stage. -/
def propertyIdent (name : String) : Stage → String
  | .vertex => Glsl.attributeName name
  | .fragment => Glsl.varyingName name

/-- How a stage reads properties. The vertex shader reads an attribute, and unpacks it if it is a
color; the fragment shader reads the varying that carries it. -/
def propertyTerm (stage : Stage) : Glsl.Reading := fun name type =>
  if type = .color ∧ stage = .vertex then Glsl.unpack (.name (propertyIdent name stage))
  else Glsl.readTerm (propertyIdent name stage) type

/-- The code of a reference, once it is registered. -/
def term (stage : Stage) (categories : Categories) : Reference → Glsl.Term
  | .property _ name type => propertyTerm stage name type
  | .styleVariable _ name type =>
    if type = .color then Glsl.unpack (.name (Glsl.uniformName name))
    else Glsl.readTerm (Glsl.uniformName name) type
  | .text _ s => .number (.ofInt (categories.number s))
  | .number _ x => .number x

/-- What the registry holds once a reference is registered. -/
def Provided (stage : Stage) (r : Registry) : Reference → Prop
  | .property _ name type =>
    (∃ a, r.attributes.get? name = some a ∧ a.type = type ∧
      (stage = .fragment → a.varying = some (Glsl.varyingName name))) ∧
      (type = .color ∧ stage = .vertex → Glsl.unpackFunction ∈ r.shader.functions stage)
  | .styleVariable _ name type =>
    (∃ v, r.vars.get? name = some v ∧ v.type = type) ∧
      (type = .color → Glsl.unpackFunction ∈ r.shader.functions stage)
  | .text _ s => r.categories.Settled s ∧ (Double.ofInt (r.categories.number s)).isFinite = true
  | .number _ x => x.isFinite = true

end Reference

namespace Registry

variable {allowed : Ty → Prop} {r r' : Registry}

theorem Step.keeps_functions (h : Step allowed r r') {stage : Stage} {f : String}
    (hf : f ∈ r.shader.functions stage) : f ∈ r'.shader.functions stage := by
  cases h with
  | claim | category => exact hf
  | unpack other => exact Shader.mem_functions_addFunction hf
  | property name type shader _ _ declared =>
    obtain ⟨_, _, rfl⟩ := Shader.addAttribute_cases declared
    exact hf
  | varying name known shader _ _ _ declared =>
    rcases Shader.addVarying_cases declared with ⟨_, rfl⟩ | ⟨_, rfl⟩
    · exact hf
    · exact hf
  | uniform name type shader _ _ declared =>
    obtain ⟨_, _, rfl⟩ := Shader.addUniform_cases declared
    exact hf

theorem Step.keeps_slots (h : Step allowed r r') : r'.shader.slots = r.shader.slots := by
  cases h with
  | claim | category => rfl
  | unpack stage => cases stage <;> rfl
  | property name type shader _ _ declared =>
    obtain ⟨_, _, rfl⟩ := Shader.addAttribute_cases declared
    rfl
  | varying name known shader _ _ _ declared =>
    rw [Shader.addVarying_eq declared]
  | uniform name type shader _ _ declared =>
    obtain ⟨_, _, rfl⟩ := Shader.addUniform_cases declared
    rfl

theorem Steps.keeps_slots (h : Steps allowed r r') : r'.shader.slots = r.shader.slots := by
  induction h with
  | refl => rfl
  | tail _ hstep ih => rw [hstep.keeps_slots, ih]

theorem Step.provided (h : Step allowed r r') {stage : Stage} {ref : Reference}
    (hp : ref.Provided stage r) : ref.Provided stage r' := by
  cases ref with
  | property path name type =>
    obtain ⟨⟨a, entry, htype, hvarying⟩, hunpack⟩ := hp
    obtain ⟨a', entry', htype', -, hkept⟩ := h.keeps_attribute entry
    exact ⟨⟨a', entry', htype'.trans htype, fun hs => hkept _ (hvarying hs)⟩,
      fun hc => h.keeps_functions (hunpack hc)⟩
  | styleVariable path name type =>
    obtain ⟨⟨v, entry, htype⟩, hunpack⟩ := hp
    exact ⟨⟨v, h.keeps_variable entry, htype⟩, fun hc => h.keeps_functions (hunpack hc)⟩
  | text path s =>
    obtain ⟨hsettled, hfinite⟩ := hp
    exact ⟨h.grows.settled hsettled, by rw [h.grows.number_eq hsettled, hfinite]⟩
  | number path x => exact hp

theorem Steps.provided (h : Steps allowed r r') {stage : Stage} {ref : Reference}
    (hp : ref.Provided stage r) : ref.Provided stage r' :=
  h.keeps (fun r => ref.Provided stage r) (fun hstep => hstep.provided) hp

theorem Named.property_ident (hr : r.Named) {path : Path} {name ident : String} {type : Ty}
    {stage : Stage} (h : (property path name type stage).run.run r = (.ok ident, r')) :
    ident = Reference.propertyIdent name stage := by
  have hspec : Steps (fun _ => True) r r' ∧ _ := property_spec trivial h
  obtain ⟨hsteps, hentry⟩ := hspec
  obtain ⟨a, entry, -, hvertex, hfragment⟩ := hentry ident rfl
  have hr' := hsteps.named hr
  cases stage with
  | vertex => exact (hvertex rfl).trans (hr'.ident_eq entry)
  | fragment => exact hr'.varying_eq entry (hfragment rfl)

theorem Named.styleVariable_ident (hr : r.Named) {path : Path} {name ident : String} {type : Ty}
    (h : (styleVariable path name type).run.run r = (.ok ident, r')) :
    ident = Glsl.uniformName name := by
  have hspec : Steps (fun _ => True) r r' ∧ _ := styleVariable_spec trivial h
  obtain ⟨hsteps, hentry⟩ := hspec
  obtain ⟨v, entry, -, hv⟩ := hentry ident rfl
  exact hv.trans ((hsteps.named hr).uniform_eq entry)

end Registry

namespace Reference

variable {allowed : Ty → Prop} {stage : Stage} {r r' : Registry}

theorem emitGet_spec {path : Path} {name : String} {type : Ty} (typed : allowed type)
    {outcome : Except Issue Glsl.Term}
    (h : (Emission.emitGet stage path name type).run.run r = (outcome, r')) :
    Registry.Steps allowed r r' ∧ ∀ t, outcome = .ok t → r.Named →
      t = (property path name type).term stage r'.categories ∧
        (property path name type).Provided stage r' := by
  rcases Registry.run_bind_cases h with ⟨i, hproperty, rfl⟩ | ⟨ident, r₁, hproperty, hrest⟩
  · exact ⟨(Registry.property_spec typed hproperty).1, nofun⟩
  obtain ⟨hsteps, hident⟩ := Registry.property_spec typed hproperty
  obtain ⟨a, entry, htype, -, hfragment⟩ := hident ident rfl
  have hname (hr : r.Named) : ident = propertyIdent name stage := hr.property_ident hproperty
  have hvarying (hr : r.Named) (hs : stage = .fragment) :
      a.varying = some (Glsl.varyingName name) := by
    have hv := hfragment hs
    rwa [hname hr, hs] at hv
  by_cases hcolor : type = .color ∧ stage = .vertex
  · rw [if_pos hcolor] at hrest
    cases hrest
    have hstep : Registry.Step allowed r₁ _ := .unpack .vertex
    refine ⟨hsteps.trans hstep.steps, fun t ht hr => ?_⟩
    cases ht
    rw [term, propertyTerm, if_pos hcolor, hname hr]
    refine ⟨rfl, ⟨a, entry, htype, hvarying hr⟩, fun _ => ?_⟩
    rw [hcolor.2]
    exact r₁.shader.mem_functions_self .vertex Glsl.unpackFunction
  · rw [if_neg hcolor] at hrest
    cases hrest
    refine ⟨hsteps, fun t ht hr => ?_⟩
    cases ht
    rw [term, propertyTerm, if_neg hcolor, hname hr]
    exact ⟨rfl, ⟨a, entry, htype, hvarying hr⟩, fun hc => absurd hc hcolor⟩

theorem emitVar_spec {path : Path} {name : String} {type : Ty} (typed : allowed type)
    {outcome : Except Issue Glsl.Term}
    (h : (Emission.emitVar stage path name type).run.run r = (outcome, r')) :
    Registry.Steps allowed r r' ∧ ∀ t, outcome = .ok t → r.Named →
      t = (styleVariable path name type).term stage r'.categories ∧
        (styleVariable path name type).Provided stage r' := by
  rcases Registry.run_bind_cases h with ⟨i, hvariable, rfl⟩ | ⟨ident, r₁, hvariable, hrest⟩
  · exact ⟨(Registry.styleVariable_spec typed hvariable).1, nofun⟩
  obtain ⟨hsteps, hident⟩ := Registry.styleVariable_spec typed hvariable
  obtain ⟨v, entry, htype, -⟩ := hident ident rfl
  have hname (hr : r.Named) : ident = Glsl.uniformName name := hr.styleVariable_ident hvariable
  by_cases hcolor : type = .color
  · rw [if_pos hcolor] at hrest
    cases hrest
    have hstep : Registry.Step allowed r₁ _ := .unpack stage
    refine ⟨hsteps.trans hstep.steps, fun t ht hr => ?_⟩
    cases ht
    rw [term, if_pos hcolor, hname hr]
    refine ⟨rfl, ⟨v, entry, htype⟩, fun _ => ?_⟩
    exact r₁.shader.mem_functions_self stage Glsl.unpackFunction
  · rw [if_neg hcolor] at hrest
    cases hrest
    refine ⟨hsteps, fun t ht hr => ?_⟩
    cases ht
    rw [term, if_neg hcolor, hname hr]
    exact ⟨rfl, ⟨v, entry, htype⟩, fun hc => absurd hc hcolor⟩

theorem literal_cases {path : Path} {x : Double} {outcome : Except Issue Glsl.Term}
    (h : (Emission.literal path (Glsl.number x)).run.run r = (outcome, r')) :
    r' = r ∧ ∀ t, outcome = .ok t → t = .number x ∧ x.isFinite = true := by
  unfold Glsl.number at h
  by_cases hx : x.isFinite = true
  · rw [if_pos hx] at h
    cases h
    refine ⟨rfl, fun t ht => ?_⟩
    cases ht
    exact ⟨rfl, hx⟩
  · rw [if_neg hx] at h
    cases h
    exact ⟨rfl, nofun⟩

/-- Registering a reference: what happens to the registry, and the code where it succeeds. -/
theorem emit_spec {ref : Reference} (typed : ref.Typed allowed)
    {outcome : Except Issue Glsl.Term} (h : (ref.emit stage).run.run r = (outcome, r')) :
    Registry.Steps allowed r r' ∧ ∀ t, outcome = .ok t → r.Named →
      t = ref.term stage r'.categories ∧ ref.Provided stage r' := by
  cases ref with
  | property path name type => exact emitGet_spec typed h
  | styleVariable path name type => exact emitVar_spec typed h
  | text path s =>
    rw [emit, Registry.run_bind_ok (Registry.category_run s r)] at h
    obtain ⟨rfl, hliteral⟩ := literal_cases h
    have hstep : Registry.Step allowed r _ := .category s
    refine ⟨hstep.steps, fun t ht _ => ?_⟩
    obtain ⟨rfl, hfinite⟩ := hliteral t ht
    exact ⟨rfl, Categories.settled_register _ s, hfinite⟩
  | number path x =>
    obtain ⟨rfl, hliteral⟩ := literal_cases h
    refine ⟨.refl, fun t ht _ => ?_⟩
    exact hliteral t ht

/-- The code depends on the table of texts only through the numbers that are settled. -/
theorem term_eq_of_grows {ref : Reference} {c c' : Categories} (h : c.Grows c')
    (settled : ∀ path s, ref = .text path s → c.Settled s) :
    ref.term stage c' = ref.term stage c := by
  cases ref with
  | text path s => rw [term, term, h.number_eq (settled path s rfl)]
  | _ => rfl

end Reference

end ShaderStyle
