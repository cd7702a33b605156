import Mathlib.Logic.Relation
import ShaderStyle.Emission
import ShaderStyle.Proofs.Shader

/-! What can happen to a registry. Every operation, whether it fails or not, is a sequence of the
steps that are listed here once. -/
namespace ShaderStyle.Registry

section Run

variable {α β : Type}

@[simp] theorem run_pure (a : α) (r : Registry) : (pure a : RegistryM α).run.run r = (.ok a, r) :=
  rfl

@[simp] theorem run_get (r : Registry) : (get : RegistryM Registry).run.run r = (.ok r, r) := rfl

@[simp] theorem run_modify (f : Registry → Registry) (r : Registry) :
    (modify f : RegistryM Unit).run.run r = (.ok (), f r) := rfl

theorem run_bind (m : RegistryM α) (f : α → RegistryM β) (r : Registry) :
    (m >>= f).run.run r =
      match m.run.run r with
      | (.ok a, r') => (f a).run.run r'
      | (.error i, r') => (.error i, r') := by
  rw [ExceptT.run_bind, StateT.run_bind]
  generalize m.run.run r = p
  obtain ⟨outcome, r'⟩ := p
  cases outcome with
  | ok a => rfl
  | error i => rfl

theorem run_bind_ok {m : RegistryM α} {r r' : Registry} {a : α} (h : m.run.run r = (.ok a, r'))
    (f : α → RegistryM β) : (m >>= f).run.run r = (f a).run.run r' := by
  rw [run_bind, h]

/-- A sequence fails in its first part, or goes on from where the first part ended. -/
theorem run_bind_cases {m : RegistryM α} {f : α → RegistryM β} {r r' : Registry}
    {outcome : Except Issue β} (h : (m >>= f).run.run r = (outcome, r')) :
    (∃ i, m.run.run r = (.error i, r') ∧ outcome = .error i) ∨
      ∃ a r₁, m.run.run r = (.ok a, r₁) ∧ (f a).run.run r₁ = (outcome, r') := by
  rw [run_bind] at h
  rcases hm : m.run.run r with ⟨result, r₁⟩
  rw [hm] at h
  cases result with
  | ok a => exact Or.inr ⟨a, r₁, rfl, h⟩
  | error i =>
    cases h
    exact Or.inl ⟨i, rfl, rfl⟩

end Run

/-- One change of a registry, with the conditions under which it happens. Properties and variables
have types of those that are allowed. -/
inductive Step (allowed : Ty → Prop) (r : Registry) : Registry → Prop where
  | claim (ident name : String) (free : r.idents.get? ident = none) :
      Step allowed r { r with idents := r.idents.insert ident name }
  | property (name : String) (type : Ty) (shader : Shader) (typed : allowed type)
      (new : r.attributes.get? name = none)
      (declared : r.shader.addAttribute (Glsl.attributeName name) (Glsl.storageTypeName type) =
        .ok shader) :
      Step allowed r { r with
        shader
        attributes := r.attributes.insert name
          { name, ident := Glsl.attributeName name, type } }
  | unpack (stage : Stage) :
      Step allowed r { r with shader := r.shader.addFunction stage Glsl.unpackFunction }
  | varying (name : String) (known : Attribute) (shader : Shader)
      (registered : r.attributes.get? name = some known) (first : known.varying = none)
      (unpacks : known.type = .color → Glsl.unpackFunction ∈ r.shader.vertexFunctions)
      (declared : r.shader.addVarying ⟨Glsl.varyingName name, Glsl.typeName known.type,
        (attributeTerm known.ident known.type).text⟩ = .ok shader) :
      Step allowed r { r with
        shader
        attributes := r.attributes.insert name
          { known with varying := some (Glsl.varyingName name) } }
  | uniform (name : String) (type : Ty) (shader : Shader) (typed : allowed type)
      (new : r.vars.get? name = none)
      (declared : r.shader.addUniform (Glsl.uniformName name) (Glsl.storageTypeName type) =
        .ok shader) :
      Step allowed r { r with
        shader
        vars := r.vars.insert name { name, ident := Glsl.uniformName name, type } }
  | category (s : String) : Step allowed r { r with categories := r.categories.register s }

/-- Any number of changes. -/
def Steps (allowed : Ty → Prop) : Registry → Registry → Prop :=
  Relation.ReflTransGen (Step allowed)

variable {allowed : Ty → Prop} {r r' : Registry}

theorem Steps.refl : Steps allowed r r := Relation.ReflTransGen.refl

theorem Steps.trans {r₁ : Registry} (h : Steps allowed r r₁) (h' : Steps allowed r₁ r') :
    Steps allowed r r' := Relation.ReflTransGen.trans h h'

theorem Step.steps (h : Step allowed r r') : Steps allowed r r' := Relation.ReflTransGen.single h

/-- What every step keeps, every sequence of steps keeps. -/
theorem Steps.keeps (h : Steps allowed r r') (kept : Registry → Prop)
    (step : ∀ {r r'}, Step allowed r r' → kept r → kept r') (hr : kept r) : kept r' := by
  induction h with
  | refl => exact hr
  | tail _ hstep ih => exact step hstep ih

theorem claim_cases {path : Path} {ident name : String} {outcome : Except Issue Unit}
    (h : (claim path ident name).run.run r = (outcome, r')) :
    (∃ previous, r.idents.get? ident = some previous ∧ r' = r) ∨
      (r.idents.get? ident = none ∧ outcome = .ok () ∧
        r' = { r with idents := r.idents.insert ident name }) := by
  rw [claim, run_bind_ok (run_get r)] at h
  cases hget : r.idents.get? ident with
  | none =>
    rw [hget] at h
    cases h
    exact Or.inr ⟨rfl, rfl, rfl⟩
  | some previous =>
    simp only [hget] at h
    left
    refine ⟨previous, rfl, ?_⟩
    by_cases hp : previous = name
    · rw [if_neg (by simpa using hp)] at h
      cases h
      rfl
    · rw [if_pos hp] at h
      cases h
      rfl

theorem declare_cases {path : Path} {change : Shader → Except Conflict Shader}
    {outcome : Except Issue Unit} (h : (declare path change).run.run r = (outcome, r')) :
    (∃ shader, change r.shader = .ok shader ∧ outcome = .ok () ∧ r' = { r with shader }) ∨
      (∃ conflict, change r.shader = .error conflict ∧
        outcome = .error ⟨path, .redeclared conflict⟩ ∧ r' = r) := by
  rw [declare, run_bind_ok (run_get r)] at h
  cases hchange : change r.shader with
  | ok shader =>
    rw [hchange] at h
    cases h
    exact Or.inl ⟨shader, rfl, rfl, rfl⟩
  | error conflict =>
    rw [hchange] at h
    cases h
    exact Or.inr ⟨conflict, rfl, rfl, rfl⟩

theorem claim_steps {path : Path} {ident name : String} {outcome : Except Issue Unit}
    (h : (claim path ident name).run.run r = (outcome, r')) : Steps allowed r r' := by
  rcases claim_cases h with ⟨_, _, rfl⟩ | ⟨free, _, rfl⟩
  · exact .refl
  · exact (Step.claim ident name free).steps

theorem claim_attributes {path : Path} {ident name : String} {outcome : Except Issue Unit}
    (h : (claim path ident name).run.run r = (outcome, r')) :
    r'.attributes = r.attributes ∧ r'.vars = r.vars ∧ r'.shader = r.shader := by
  rcases claim_cases h with ⟨_, _, rfl⟩ | ⟨_, _, rfl⟩
  · exact ⟨rfl, rfl, rfl⟩
  · exact ⟨rfl, rfl, rfl⟩

theorem checkType_cases {path : Path} {what name : String} {previous type : Ty}
    {outcome : Except Issue Unit}
    (h : (checkType path what name previous type).run.run r = (outcome, r')) :
    r' = r ∧ (outcome = .ok () → previous = type) := by
  unfold checkType at h
  split at h
  · next htype =>
    cases h
    exact ⟨rfl, fun _ => htype⟩
  · cases h
    exact ⟨rfl, nofun⟩

/-- An attribute that was registered is in the table, with the type it was asked for. -/
theorem registerAttribute_spec {path : Path} {name : String} {type : Ty} (typed : allowed type)
    {outcome : Except Issue Attribute}
    (h : (registerAttribute path name type).run.run r = (outcome, r')) :
    Steps allowed r r' ∧
      ∀ a, outcome = .ok a → r'.attributes.get? name = some a ∧ a.type = type := by
  rw [registerAttribute, run_bind_ok (run_get r)] at h
  cases hget : r.attributes.get? name with
  | some known =>
    simp only [hget] at h
    rcases run_bind_cases h with ⟨i, hcheck, rfl⟩ | ⟨⟨⟩, r₁, hcheck, hrest⟩
    · obtain ⟨rfl, -⟩ := checkType_cases hcheck
      exact ⟨.refl, nofun⟩
    · obtain ⟨rfl, htype⟩ := checkType_cases hcheck
      cases hrest
      refine ⟨.refl, fun a ha => ?_⟩
      cases ha
      exact ⟨hget, htype rfl⟩
  | none =>
    simp only [hget] at h
    rcases run_bind_cases h with ⟨i, hclaim, rfl⟩ | ⟨⟨⟩, r₁, hclaim, h⟩
    · exact ⟨claim_steps hclaim, nofun⟩
    · have hnew : r₁.attributes.get? name = none := by rw [(claim_attributes hclaim).1, hget]
      rcases run_bind_cases h with ⟨i, hdeclare, rfl⟩ | ⟨⟨⟩, r₂, hdeclare, h⟩
      · rcases declare_cases hdeclare with ⟨_, _, hok, _⟩ | ⟨_, _, _, rfl⟩
        · cases hok
        · exact ⟨claim_steps hclaim, nofun⟩
      · rcases declare_cases hdeclare with ⟨shader, hshader, _, rfl⟩ | ⟨_, _, herror, _⟩
        · cases h
          have hstep := Step.property name type shader typed hnew hshader
          refine ⟨(claim_steps hclaim).trans hstep.steps, fun a ha => ?_⟩
          cases ha
          exact ⟨OrderedMap.get?_insert_self _ _ _, rfl⟩
        · cases herror

/-- The last part of registering a property for the fragment stage. -/
theorem addVarying_spec {path : Path} {name : String} {known : Attribute}
    (registered : r.attributes.get? name = some known) (first : known.varying = none)
    (unpacks : known.type = .color → Glsl.unpackFunction ∈ r.shader.vertexFunctions)
    {outcome : Except Issue String}
    (h : (do
      declare path fun s => s.addVarying ⟨Glsl.varyingName name, Glsl.typeName known.type,
        (attributeTerm known.ident known.type).text⟩
      modify fun r => { r with
        attributes := r.attributes.insert name
          { known with varying := some (Glsl.varyingName name) } }
      pure (Glsl.varyingName name) : RegistryM String).run.run r = (outcome, r')) :
    Steps allowed r r' ∧ ∀ ident, outcome = .ok ident →
      ∃ a, r'.attributes.get? name = some a ∧ a.type = known.type ∧
        (Stage.fragment = .vertex → ident = a.ident) ∧
        (Stage.fragment = .fragment → a.varying = some ident) := by
  rcases run_bind_cases h with ⟨i, hdeclare, rfl⟩ | ⟨⟨⟩, r₁, hdeclare, hrest⟩
  · rcases declare_cases hdeclare with ⟨_, _, hok, _⟩ | ⟨_, _, _, rfl⟩
    · cases hok
    · exact ⟨.refl, nofun⟩
  · rcases declare_cases hdeclare with ⟨shader, hshader, _, rfl⟩ | ⟨_, _, herror, _⟩
    · cases hrest
      have hstep : Step allowed r _ := .varying name known shader registered first unpacks hshader
      refine ⟨hstep.steps, fun ident hident => ?_⟩
      cases hident
      exact ⟨_, OrderedMap.get?_insert_self _ _ _, rfl, nofun, fun _ => rfl⟩
    · cases herror

/-- The identifier of a property is that of its entry: the attribute in the vertex stage, the
varying in the fragment stage. -/
theorem property_spec {path : Path} {name : String} {type : Ty} {stage : Stage}
    (typed : allowed type) {outcome : Except Issue String}
    (h : (property path name type stage).run.run r = (outcome, r')) :
    Steps allowed r r' ∧ ∀ ident, outcome = .ok ident →
      ∃ a, r'.attributes.get? name = some a ∧ a.type = type ∧
        (stage = .vertex → ident = a.ident) ∧ (stage = .fragment → a.varying = some ident) := by
  rcases run_bind_cases h with ⟨i, hreg, rfl⟩ | ⟨known, r₁, hreg, h⟩
  · exact ⟨(registerAttribute_spec typed hreg).1, nofun⟩
  obtain ⟨hsteps, hentry⟩ := registerAttribute_spec typed hreg
  obtain ⟨hknown, rfl⟩ := hentry known rfl
  cases stage with
  | vertex =>
    cases h
    refine ⟨hsteps, fun ident hident => ?_⟩
    cases hident
    exact ⟨known, hknown, rfl, fun _ => rfl, nofun⟩
  | fragment =>
    cases hvarying : known.varying with
    | some varying =>
      simp only [hvarying] at h
      cases h
      refine ⟨hsteps, fun ident hident => ?_⟩
      cases hident
      exact ⟨known, hknown, rfl, nofun, fun _ => hvarying⟩
    | none =>
      simp only [hvarying] at h
      rcases run_bind_cases h with ⟨i, hclaim, rfl⟩ | ⟨⟨⟩, r₂, hclaim, h⟩
      · exact ⟨hsteps.trans (claim_steps hclaim), nofun⟩
      obtain ⟨hattributes, -, -⟩ := claim_attributes hclaim
      have hentry : r₂.attributes.get? name = some known := by rw [hattributes, hknown]
      have hall := hsteps.trans (claim_steps hclaim)
      -- For a color the helper is added first, so that the varying can call it.
      by_cases hcolor : known.type = .color
      · have hstep : Step allowed r₂ _ := .unpack .vertex
        have hhelper := r₂.shader.mem_functions_self .vertex Glsl.unpackFunction
        rw [if_pos hcolor, addFunction, run_bind_ok (run_modify _ r₂)] at h
        obtain ⟨hdeclared, hident⟩ :=
          addVarying_spec (r := { r₂ with
            shader := r₂.shader.addFunction .vertex Glsl.unpackFunction }) hentry hvarying
            (fun _ => hhelper) h
        exact ⟨(hall.trans hstep.steps).trans hdeclared, hident⟩
      · rw [if_neg hcolor] at h
        obtain ⟨hdeclared, hident⟩ :=
          addVarying_spec hentry hvarying (fun hc => absurd hc hcolor) h
        exact ⟨hall.trans hdeclared, hident⟩

/-- A variable that was registered is in the table, with the type it was asked for. -/
theorem styleVariable_spec {path : Path} {name : String} {type : Ty} (typed : allowed type)
    {outcome : Except Issue String}
    (h : (styleVariable path name type).run.run r = (outcome, r')) :
    Steps allowed r r' ∧ ∀ ident, outcome = .ok ident →
      ∃ v, r'.vars.get? name = some v ∧ v.type = type ∧ ident = v.ident := by
  rw [styleVariable, run_bind_ok (run_get r)] at h
  cases hget : r.vars.get? name with
  | some v =>
    simp only [hget] at h
    rcases run_bind_cases h with ⟨i, hcheck, rfl⟩ | ⟨⟨⟩, r₁, hcheck, hrest⟩
    · obtain ⟨rfl, -⟩ := checkType_cases hcheck
      exact ⟨.refl, nofun⟩
    · obtain ⟨rfl, htype⟩ := checkType_cases hcheck
      cases hrest
      refine ⟨.refl, fun ident hident => ?_⟩
      cases hident
      exact ⟨v, hget, htype rfl, rfl⟩
  | none =>
    simp only [hget] at h
    rcases run_bind_cases h with ⟨i, hclaim, rfl⟩ | ⟨⟨⟩, r₁, hclaim, hrest⟩
    · exact ⟨claim_steps hclaim, nofun⟩
    · have hnew : r₁.vars.get? name = none := by rw [(claim_attributes hclaim).2.1, hget]
      rcases run_bind_cases hrest with ⟨i, hdeclare, rfl⟩ | ⟨⟨⟩, r₂, hdeclare, hlast⟩
      · rcases declare_cases hdeclare with ⟨_, _, hok, _⟩ | ⟨_, _, _, rfl⟩
        · cases hok
        · exact ⟨claim_steps hclaim, nofun⟩
      · rcases declare_cases hdeclare with ⟨shader, hshader, _, rfl⟩ | ⟨_, _, herror, _⟩
        · cases hlast
          have hstep := Step.uniform name type shader typed hnew hshader
          refine ⟨(claim_steps hclaim).trans hstep.steps, fun ident hident => ?_⟩
          cases hident
          exact ⟨_, OrderedMap.get?_insert_self _ _ _, rfl, rfl⟩
        · cases herror

theorem category_run (s : String) (r : Registry) :
    (category s).run.run r =
      (.ok ((r.categories.register s).number s),
        { r with categories := r.categories.register s }) := rfl

end ShaderStyle.Registry
