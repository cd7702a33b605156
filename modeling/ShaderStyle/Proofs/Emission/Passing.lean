import ShaderStyle.Proofs.Emission.Progress

/-! What the vertex shader has of an expression, the fragment shader can read as well: varyings and
helper functions are added, and nothing else. -/
namespace ShaderStyle

/-- A shader without its varyings and helper functions. -/
def Shader.unpassed (s : Shader) : Shader :=
  { s with varyings := .empty, vertexFunctions := [], fragmentFunctions := [] }

theorem Shader.addSource_addSource (sources : List String) (source : String) :
    addSource (addSource sources source) source = addSource sources source := by
  have hmem : source ∈ addSource sources source := by simp [mem_addSource]
  rw [addSource, if_pos hmem]

theorem Shader.unpassed_addFunction (s : Shader) (stage : Stage) (source : String) :
    (s.addFunction stage source).unpassed = s.unpassed := by
  cases stage with
  | vertex => rfl
  | fragment => rfl

namespace Categories

theorem register_of_settled {c : Categories} {s : String} (h : c.Settled s) : c.register s = c := by
  rw [register, if_pos]
  simpa [Settled] using h

end Categories

namespace Registry

/-- The properties get varyings, which come after those that are there, and helper functions are
added that unpack colors. Everything else stays. -/
structure PassesOn (added : List (String × Ty)) (r r' : Registry) : Prop where
  attributes : r'.attributes.entries = r.attributes.entries.map fun e => (e.1, e.2.passedOn added)
  vars : r'.vars = r.vars
  categories : r'.categories = r.categories
  idents : r'.idents.entries = r.idents.entries ++ added.map fun p => (Glsl.varyingName p.1, p.1)
  varyings : r'.shader.varyings.entries =
    r.shader.varyings.entries ++ added.map fun p => (Glsl.varyingName p.1, passing p.1 p.2)
  functions (stage : Stage) : r'.shader.functions stage = r.shader.functions stage ∨
    r'.shader.functions stage = Shader.addSource (r.shader.functions stage) Glsl.unpackFunction
  shader : r'.shader.unpassed = r.shader.unpassed

namespace PassesOn

variable {others : List String} {added added' : List (String × Ty)} {r r₁ r' : Registry}

theorem refl (r : Registry) : PassesOn [] r r where
  attributes := by simp [Attribute.passedOn_nil]
  vars := rfl
  categories := rfl
  idents := by simp
  varyings := by simp
  functions _ := Or.inl rfl
  shader := rfl

theorem trans (h : PassesOn added r r₁) (h' : PassesOn added' r₁ r') :
    PassesOn (added ++ added') r r' where
  attributes := by
    rw [h'.attributes, h.attributes, List.map_map]
    refine List.map_congr_left fun e _ => ?_
    rw [Attribute.passedOn_append]
    rfl
  vars := h'.vars.trans h.vars
  categories := h'.categories.trans h.categories
  idents := by rw [h'.idents, h.idents, List.map_append, List.append_assoc]
  varyings := by rw [h'.varyings, h.varyings, List.map_append, List.append_assoc]
  functions stage := by
    rcases h.functions stage with hfirst | hfirst <;>
      rcases h'.functions stage with hsecond | hsecond
    · exact Or.inl (hsecond.trans hfirst)
    · exact Or.inr (by rw [hsecond, hfirst])
    · exact Or.inr (hsecond.trans hfirst)
    · exact Or.inr (by rw [hsecond, hfirst, Shader.addSource_addSource])
  shader := h'.shader.trans h.shader

theorem addFunction (r : Registry) (stage : Stage) :
    PassesOn [] r { r with shader := r.shader.addFunction stage Glsl.unpackFunction } :=
  { refl r with
    varyings := by cases stage <;> simp [Shader.addFunction]
    functions := fun other => by
      rw [Shader.functions_addFunction]
      split
      · exact Or.inr rfl
      · exact Or.inl rfl
    shader := r.shader.unpassed_addFunction stage _ }

theorem withHelper (r : Registry) (type : Ty) :
    PassesOn [] r { r with shader := Registry.withHelper r.shader type } := by
  unfold Registry.withHelper
  split
  · exact addFunction r .vertex
  · exact refl r

end PassesOn

theorem attributeOf_append (passed added : List (String × Ty)) (p : String × Ty) :
    attributeOf (passed ++ added) p = (attributeOf passed p).passedOn added := by
  have hpair : ((attributeOf passed p).name, (attributeOf passed p).type) = p := rfl
  rw [Attribute.passedOn, hpair]
  by_cases hpassed : p ∈ passed <;> by_cases hadded : p ∈ added <;>
    simp [attributeOf, hpassed, hadded]

namespace Tables

variable {others : List String} {properties passed styleVariables : List (String × Ty)}
  {r : Registry} {name : String} {type : Ty}

/-- A varying is added for a property that is registered. -/
theorem passesOn_varying (h : r.Tables others properties passed styleVariables)
    (hq : (name, type) ∈ properties) (new : (name, type) ∉ passed) :
    PassesOn [(name, type)] r { r with
      shader := { r.shader with varyings :=
        r.shader.varyings.insert (Glsl.varyingName name) (passing name type) }
      attributes := r.attributes.insert name { attributeOf passed (name, type) with
        varying := some (Glsl.varyingName name) }
      idents := r.idents.insert (Glsl.varyingName name) name } := by
  have hmangle (p : String × Ty) (hp : p ∈ passed) : Glsl.mangle p.1 ≠ Glsl.mangle name :=
    fun same => new (h.coherent_properties.eq_of_mangle (h.passed_subset hp) hq same ▸ hp)
  have hafter := (h.new_varying hq new).attributes
  exact { PassesOn.refl r with
    attributes := by
      rw [hafter, h.attributes, List.map_map]
      refine List.map_congr_left fun p _ => ?_
      rw [attributeOf_append]
      rfl
    idents := by
      rw [OrderedMap.entries_insert_new (h.varyings_claimed.get?_eq_none.mpr hmangle)]
      rfl
    varyings := by
      have hdecl : r.shader.varyings.get? (Glsl.varyingName name) = none :=
        h.declared_varyings.get?_eq_none.mpr fun p hp heq =>
          hmangle p hp (Glsl.varyingName_eq_iff.mp heq)
      rw [OrderedMap.entries_insert_new hdecl]
      rfl
    functions := fun stage => Or.inl (by cases stage <;> rfl) }

/-- A property that the vertex shader reads can be read in the fragment shader. -/
theorem passesOn_property (h : r.Tables others properties passed styleVariables) (path : Path)
    {a : Attribute} (entry : r.attributes.get? name = some a) (htype : a.type = type) :
    ∃ ident r' added, (Registry.property path name type .fragment).run.run r = (.ok ident, r') ∧
      added ⊆ [(name, type)] ∧ PassesOn added r r' := by
  have hreg : (Registry.registerAttribute path name type).run.run r = (.ok a, r) :=
    registerAttribute_known entry htype
  obtain ⟨p, hp, rfl, rfl⟩ := h.attributes.get?_eq_some entry
  subst htype
  by_cases hmem : p ∈ passed
  · have hvarying : (attributeOf passed p).varying = some (Glsl.varyingName p.1) := if_pos hmem
    refine ⟨Glsl.varyingName p.1, r, [], ?_, List.nil_subset _, .refl r⟩
    rw [Registry.property, run_bind_ok hreg]
    simp only [hvarying]
    rfl
  · have hfirst : (attributeOf passed p).varying = none := if_neg hmem
    have hmangle (q : String × Ty) (hq : q ∈ passed) : Glsl.mangle q.1 ≠ Glsl.mangle p.1 :=
      fun same => hmem (h.coherent_properties.eq_of_mangle (h.passed_subset hq) hp same ▸ hq)
    have hident := h.varyings_claimed.get?_eq_none.mpr hmangle
    have hdecl : r.shader.varyings.get? (Glsl.varyingName p.1) = none :=
      h.declared_varyings.get?_eq_none.mpr fun q hq heq =>
        hmangle q hq (Glsl.varyingName_eq_iff.mp heq)
    refine ⟨_, _, [p], property_new_varying hreg hfirst hident hdecl, List.Subset.refl _, ?_⟩
    exact (PassesOn.withHelper r p.2).trans ((h.withHelper p.2).passesOn_varying hp hmem)

end Tables

/-- A registry whose tables list what it was asked for. -/
def Tabled (others : List String) (r : Registry) : Prop :=
  ∃ properties passed styleVariables, r.Tables others properties passed styleVariables

theorem Tabled.named {others : List String} {r : Registry} (h : r.Tabled others) : r.Named := by
  obtain ⟨properties, passed, styleVariables, htables⟩ := h
  exact htables.named

theorem Takes.tabled {others : List String} {qs : Requests} {r r' : Registry}
    (h : Takes others qs r r') (hr : r.Tabled others) : r'.Tabled others := by
  obtain ⟨properties, passed, styleVariables, htables⟩ := hr
  exact ⟨_, _, _, h.tables htables⟩

namespace Named

variable {r : Registry} {stage : Stage}

theorem property_again (h : r.Named) (path : Path) {name : String} {type : Ty} {a : Attribute}
    (entry : r.attributes.get? name = some a) (htype : a.type = type)
    (hvarying : stage = .fragment → a.varying = some (Glsl.varyingName name)) :
    (Registry.property path name type stage).run.run r =
      (.ok (Reference.propertyIdent name stage), r) := by
  rw [Registry.property, run_bind_ok (registerAttribute_known entry htype)]
  cases stage with
  | vertex =>
    rw [Reference.propertyIdent, ← h.ident_eq entry]
    rfl
  | fragment =>
    simp only [hvarying rfl]
    rfl

/-- A reference that is registered gives its code again and changes nothing. -/
theorem emit_again (h : r.Named) {ref : Reference} (provided : ref.Provided stage r) :
    (ref.emit stage).run.run r = (.ok (ref.term stage r.categories), r) := by
  cases ref with
  | property path name type =>
    obtain ⟨⟨a, entry, htype, hvarying⟩, hunpack⟩ := provided
    rw [Reference.emit, Emission.emitGet,
      run_bind_ok (h.property_again path entry htype hvarying), Reference.term,
      Reference.propertyTerm]
    by_cases hcolor : type = .color ∧ stage = .vertex
    · obtain ⟨rfl, rfl⟩ := hcolor
      have hsame : r.shader.addFunction .vertex Glsl.unpackFunction = r.shader :=
        Shader.addFunction_of_mem (hunpack ⟨rfl, rfl⟩)
      rw [if_pos ⟨rfl, rfl⟩, if_pos ⟨rfl, rfl⟩, addFunction, run_bind_ok (run_modify _ r), hsame]
      rfl
    · rw [if_neg hcolor, if_neg hcolor]
      rfl
  | styleVariable path name type =>
    obtain ⟨⟨v, entry, htype⟩, hunpack⟩ := provided
    rw [Reference.emit, Emission.emitVar, run_bind_ok (styleVariable_known entry htype),
      h.uniform_eq entry, Reference.term]
    by_cases hcolor : type = .color
    · have hsame : r.shader.addFunction stage Glsl.unpackFunction = r.shader :=
        Shader.addFunction_of_mem (hunpack hcolor)
      rw [if_pos hcolor, if_pos hcolor, addFunction, run_bind_ok (run_modify _ r), hsame]
      rfl
    · rw [if_neg hcolor, if_neg hcolor]
      rfl
  | text path s =>
    obtain ⟨settled, finite⟩ := provided
    rw [Reference.emit, run_bind_ok (category_run s r), Categories.register_of_settled settled,
      Glsl.number, if_pos finite]
    rfl
  | number path x =>
    have finite : x.isFinite = true := provided
    rw [Reference.emit, Glsl.number, if_pos finite]
    rfl

theorem registerAll_again (h : r.Named) {refs : List Reference}
    (provided : ∀ ref ∈ refs, ref.Provided stage r) :
    (ShaderStyle.registerAll stage refs).run.run r = (.ok (), r) := by
  induction refs with
  | nil => rfl
  | cons ref refs ih =>
    rw [ShaderStyle.registerAll, run_bind_ok (h.emit_again (provided ref (by simp)))]
    exact ih fun other hother => provided other (by simp [hother])

end Named

namespace PassesOn

variable {others : List String} {r : Registry}

/-- A reference that the vertex shader has is never refused in the fragment shader. -/
theorem reference (h : r.Tabled others) {ref : Reference} (provided : ref.Provided .vertex r) :
    ∃ t r' added, (ref.emit .fragment).run.run r = (.ok t, r') ∧ added ⊆ ref.properties ∧
      PassesOn added r r' := by
  cases ref with
  | property path name type =>
    obtain ⟨⟨a, entry, htype, -⟩, -⟩ := provided
    obtain ⟨_, _, _, htables⟩ := h
    obtain ⟨ident, r', added, hrun, hadded, hpasses⟩ :=
      htables.passesOn_property path entry htype
    refine ⟨Glsl.readTerm ident type, r', added, ?_, hadded, hpasses⟩
    rw [Reference.emit, Emission.emitGet, run_bind_ok hrun, if_neg (by simp)]
    rfl
  | styleVariable path name type =>
    obtain ⟨⟨v, entry, htype⟩, -⟩ := provided
    have hknown : (Registry.styleVariable path name type).run.run r = (.ok v.ident, r) :=
      styleVariable_known entry htype
    by_cases hcolor : type = .color
    · refine ⟨Glsl.unpack (.name v.ident), _, [], ?_, List.nil_subset _, addFunction r .fragment⟩
      rw [Reference.emit, Emission.emitVar, run_bind_ok hknown, if_pos hcolor]
      rfl
    · refine ⟨Glsl.readTerm v.ident type, r, [], ?_, List.nil_subset _, refl r⟩
      rw [Reference.emit, Emission.emitVar, run_bind_ok hknown, if_neg hcolor]
      rfl
  | text path s =>
    have hsame : (Reference.text path s).Provided .fragment r := provided
    exact ⟨_, r, [], h.named.emit_again hsame, List.nil_subset _, refl r⟩
  | number path x =>
    have hsame : (Reference.number path x).Provided .fragment r := provided
    exact ⟨_, r, [], h.named.emit_again hsame, List.nil_subset _, refl r⟩

theorem registerAll (h : r.Tabled others) {refs : List Reference}
    (provided : ∀ ref ∈ refs, ref.Provided .vertex r) :
    ∃ r' added, (ShaderStyle.registerAll .fragment refs).run.run r = (.ok (), r') ∧
      added ⊆ refs.flatMap Reference.properties ∧ PassesOn added r r' := by
  induction refs generalizing r with
  | nil => exact ⟨r, [], rfl, List.nil_subset _, refl r⟩
  | cons ref refs ih =>
    obtain ⟨t, r₁, added, hrun, hadded, hpasses⟩ := reference h (provided ref (by simp))
    obtain ⟨taken, -, -, htakes⟩ := Takes.reference others hrun
    have htyped : ref.Typed fun _ => True := by cases ref <;> trivial
    have hsteps := (Reference.emit_spec htyped hrun).1
    obtain ⟨r', added', hrest, hadded', hpasses'⟩ := ih (htakes.tabled h) fun other hother =>
      hsteps.provided (provided other (by simp [hother]))
    refine ⟨r', added ++ added', ?_, ?_, hpasses.trans hpasses'⟩
    · rw [ShaderStyle.registerAll, run_bind_ok hrun, hrest]
    · rw [List.flatMap_cons, List.append_subset]
      exact ⟨List.subset_append_of_subset_left _ hadded,
        List.subset_append_of_subset_right _ hadded'⟩

/-- What the vertex shader has of an expression, the fragment shader can read: its emission
succeeds and adds only varyings and helper functions. -/
theorem emit (h : r.Tabled others) {sizes : Nat → Prop} {e : Expr} (typed : e.WellTyped sizes)
    (provided : ∀ ref ∈ e.references, ref.Provided .vertex r) :
    ∃ r' added, (emit .fragment e).run.run r = (.ok (e.term .fragment r.categories), r') ∧
      added ⊆ e.properties ∧ PassesOn added r r' := by
  obtain ⟨r', added, hrun, hadded, hpasses⟩ := registerAll h provided
  refine ⟨r', added, ?_, ?_, hpasses⟩
  · rw [ShaderStyle.emit, (typed.emits .fragment).run r h.named, hrun, ← hpasses.categories]
  · rw [Expr.properties_eq]
    exact hadded

end PassesOn

end Registry

end ShaderStyle
