import ShaderStyle.Proofs.Emission.Records

/-! What becomes of a registry while references are made, whether they are accepted or refused. A
reference that is refused leaves the tables as they are. -/
namespace ShaderStyle.Registry

/-- Why a registry refuses a name: the name is known with another type, or its identifier was made
from another name. -/
inductive Refuses (r : Registry) (what : String) (known : Option Ty) (ident : String) (path : Path)
    (name : String) (type : Ty) : Issue → Prop where
  | retyped {previous : Ty} (registered : known = some previous) (differ : previous ≠ type) :
      Refuses r what known ident path name type ⟨path, .conflictingUse what name type previous⟩
  | clash {previous : String} (new : known = none) (claimed : r.idents.get? ident = some previous)
      (differ : previous ≠ name) :
      Refuses r what known ident path name type ⟨path, .identClash previous name ident⟩

namespace Tables

variable {others : List String} {properties passed styleVariables : List (String × Ty)}
  {r r' : Registry} {path : Path} {name : String} {type : Ty} {stage : Stage} {i : Issue}

theorem registerAttribute_error (h : r.Tables others properties passed styleVariables)
    (run : (Registry.registerAttribute path name type).run.run r = (.error i, r')) :
    r' = r ∧ r.Refuses "feature property" (r.propertyType? name) (Glsl.attributeName name) path name
      type i := by
  cases hget : r.attributes.get? name with
  | some known =>
    by_cases htype : known.type = type
    · rw [registerAttribute_known hget htype] at run
      cases run
    · rw [registerAttribute_conflict hget htype] at run
      cases run
      exact ⟨rfl, .retyped (by rw [propertyType?, hget]; rfl) htype⟩
  | none =>
    have hnew := h.attributes.get?_eq_none.mp hget
    cases hident : r.idents.get? (Glsl.attributeName name) with
    | some previous =>
      obtain ⟨p, hp, rfl, -⟩ := (h.attributes_claimed name previous).mp hident
      rw [registerAttribute_clash hget hident (hnew p hp)] at run
      cases run
      exact ⟨rfl, .clash (by rw [propertyType?, hget]; rfl) hident (hnew p hp)⟩
    | none =>
      rw [registerAttribute_new hget hident (h.attribute_undeclared hident)] at run
      cases run

/-- A property that is refused leaves no trace: what is registered can be passed on. -/
theorem property_error (h : r.Tables others properties passed styleVariables)
    (run : (Registry.property path name type stage).run.run r = (.error i, r')) :
    r' = r ∧ r.Refuses "feature property" (r.propertyType? name) (Glsl.attributeName name) path name
      type i := by
  rcases run_bind_cases run with ⟨j, hreg, hissue⟩ | ⟨known, r₁, hreg, -⟩
  · cases hissue
    exact h.registerAttribute_error hreg
  · have hregistered := h.registerAttribute path name type
    have hrefused := h.property path name type stage
    rw [Ends, hreg] at hregistered
    rw [Ends, run] at hrefused
    exact absurd hregistered.2.coherent_properties hrefused

theorem styleVariable_error (h : r.Tables others properties passed styleVariables)
    (run : (Registry.styleVariable path name type).run.run r = (.error i, r')) :
    r' = r ∧ r.Refuses "variable" (r.variableType? name) (Glsl.uniformName name) path name type
      i := by
  cases hget : r.vars.get? name with
  | some v =>
    by_cases htype : v.type = type
    · rw [styleVariable_known hget htype] at run
      cases run
    · rw [styleVariable_conflict hget htype] at run
      cases run
      exact ⟨rfl, .retyped (by rw [variableType?, hget]; rfl) htype⟩
  | none =>
    have hnew := h.vars.get?_eq_none.mp hget
    cases hident : r.idents.get? (Glsl.uniformName name) with
    | some previous =>
      obtain ⟨p, hp, rfl, -⟩ := (h.uniforms_claimed name previous).mp hident
      rw [styleVariable_clash hget hident (hnew p hp)] at run
      cases run
      exact ⟨rfl, .clash (by rw [variableType?, hget]; rfl) hident (hnew p hp)⟩
    | none =>
      rw [styleVariable_new hget hident (h.uniform_undeclared hident)] at run
      cases run

theorem emitGet_error (h : r.Tables others properties passed styleVariables)
    (run : (Emission.emitGet stage path name type).run.run r = (.error i, r')) : r' = r := by
  rcases run_bind_cases run with ⟨j, hproperty, -⟩ | ⟨ident, r₁, -, hrest⟩
  · exact (h.property_error hproperty).1
  · split at hrest
    · cases hrest
    · cases hrest

theorem emitVar_error (h : r.Tables others properties passed styleVariables)
    (run : (Emission.emitVar stage path name type).run.run r = (.error i, r')) : r' = r := by
  rcases run_bind_cases run with ⟨j, hvariable, -⟩ | ⟨ident, r₁, -, hrest⟩
  · exact (h.styleVariable_error hvariable).1
  · split at hrest
    · cases hrest
    · cases hrest

end Tables

/-- A registry after requests were taken up. -/
structure Takes (others : List String) (qs : Requests) (r r' : Registry) : Prop where
  tables {properties passed styleVariables : List (String × Ty)}
    (h : r.Tables others properties passed styleVariables) :
    r'.Tables others (properties ++ qs.properties) (passed ++ qs.passed)
      (styleVariables ++ qs.styleVariables)
  categories : r'.categories = r.categories.registerEach qs.texts

namespace Takes

variable {others : List String} {qs qs' : Requests} {r r₁ r' : Registry} {stage : Stage}

theorem nil (r : Registry) : Takes others [] r r where
  tables h := by simpa [Requests.properties, Requests.passed, Requests.styleVariables] using h
  categories := rfl

theorem append (h : Takes others qs r r₁) (h' : Takes others qs' r₁ r') :
    Takes others (qs ++ qs') r r' where
  tables htables := by simpa using h'.tables (h.tables htables)
  categories := by
    rw [h'.categories, h.categories, Requests.texts_append, Categories.registerEach_append]

/-- A reference is taken up, or refused without a trace in the tables. -/
theorem reference (others : List String) {ref : Reference} {outcome : Except Issue Glsl.Term}
    (run : (ref.emit stage).run.run r = (outcome, r')) :
    ∃ taken, taken <+: [(stage, ref)] ∧ (∀ t, outcome = .ok t → taken = [(stage, ref)]) ∧
      Takes others taken r r' := by
  have hcategories := ref.emit_categories stage r
  rw [run] at hcategories
  have hall (htables : ∀ {properties passed styleVariables : List (String × Ty)},
      r.Tables others properties passed styleVariables →
        r'.Tables others (properties ++ ref.properties) (passed ++ stage.passedOn ref.properties)
          (styleVariables ++ ref.styleVariables)) : Takes others [(stage, ref)] r r' :=
    ⟨fun h => by simpa using htables h, by simpa using hcategories⟩
  have hnone (hliterals : ref.literals = [])
      (htables : ∀ {properties passed styleVariables : List (String × Ty)},
        r.Tables others properties passed styleVariables → r' = r) : Takes others [] r r' := by
    refine ⟨fun h => ?_, by rw [hcategories, hliterals]; rfl⟩
    rw [htables h]
    exact (nil r).tables h
  cases ref with
  | property path name type =>
    cases outcome with
    | ok t =>
      refine ⟨_, List.prefix_refl _, fun _ _ => rfl, hall fun h => ?_⟩
      have hends : Ends (Emission.emitGet stage path name type) r _ _ := h.emitGet path name type
      rw [Ends, show (Emission.emitGet stage path name type).run.run r = (.ok t, r') from run]
        at hends
      simpa [Reference.properties, Reference.styleVariables] using hends
    | error i =>
      exact ⟨[], List.nil_prefix, by simp, hnone rfl fun h => h.emitGet_error run⟩
  | styleVariable path name type =>
    cases outcome with
    | ok t =>
      refine ⟨_, List.prefix_refl _, fun _ _ => rfl, hall fun h => ?_⟩
      have hends : Ends (Emission.emitVar stage path name type) r _ _ := h.emitVar path name type
      rw [Ends, show (Emission.emitVar stage path name type).run.run r = (.ok t, r') from run]
        at hends
      simpa [Reference.properties, Reference.styleVariables] using hends
    | error i =>
      exact ⟨[], List.nil_prefix, by simp, hnone rfl fun h => h.emitVar_error run⟩
  | text path s =>
    -- The text stays in the table, also where its number cannot be written.
    refine ⟨_, List.prefix_refl _, fun _ _ => rfl, hall fun h => ?_⟩
    rw [Reference.emit, run_bind_ok (category_run s r)] at run
    obtain ⟨rfl, -⟩ := Reference.literal_cases run
    simpa [Reference.properties, Reference.styleVariables] using { h with }
  | number path x =>
    obtain ⟨rfl, -⟩ := Reference.literal_cases run
    refine ⟨_, List.prefix_refl _, fun _ _ => rfl, hall fun h => ?_⟩
    simpa [Reference.properties, Reference.styleVariables] using h

/-- References are taken up from the first one on, all of them if none is refused. -/
theorem registerAll (others : List String) {refs : List Reference} {outcome : Except Issue Unit}
    (run : (ShaderStyle.registerAll stage refs).run.run r = (outcome, r')) :
    ∃ taken, taken <+: refs.map (Prod.mk stage) ∧ Takes others taken r r' := by
  induction refs generalizing r with
  | nil =>
    cases run
    exact ⟨[], List.nil_prefix, nil _⟩
  | cons ref refs ih =>
    rcases run_bind_cases run with ⟨i, hfirst, -⟩ | ⟨t, r₁, hfirst, hrest⟩
    · obtain ⟨taken, hinitial, -, htakes⟩ := reference others hfirst
      refine ⟨taken, hinitial.trans ?_, htakes⟩
      rw [List.map_cons, ← List.singleton_append]
      exact List.prefix_append _ _
    · obtain ⟨first, -, hall, hfirst⟩ := reference others hfirst
      obtain ⟨taken, hinitial, htakes⟩ := ih hrest
      obtain rfl := hall t rfl
      refine ⟨_, ?_, hfirst.append htakes⟩
      rw [List.map_cons, ← List.singleton_append]
      exact List.prefix_append_right_inj _ |>.mpr hinitial

theorem emit (others : List String) {sizes : Nat → Prop} {e : Expr} (typed : e.WellTyped sizes)
    (named : r.Named) {outcome : Except Issue Glsl.Term}
    (run : (emit stage e).run.run r = (outcome, r')) :
    ∃ taken, taken <+: e.requests stage ∧ Takes others taken r r' := by
  obtain ⟨registered, hall, -⟩ := exists_registerAll_of_emit typed named run
  exact registerAll others hall

end Takes

/-- A registry that holds nothing but what some of the requests asked for. -/
def Serves (others : List String) (qs : Requests) (r : Registry) : Prop :=
  ∃ taken : Requests, taken ⊆ qs ∧
    r.Tables others taken.properties taken.passed taken.styleVariables ∧
    r.categories = ({} : Categories).registerEach taken.texts

namespace Serves

variable {others : List String} {qs : Requests} {r r' : Registry} {stage : Stage}
  {sizes : Nat → Prop} {e : Expr}

theorem fresh (apart : ∀ name, Glsl.uniformName name ∉ others) (qs : Requests) :
    Serves others qs {} := ⟨[], List.nil_subset _, tables_fresh apart, rfl⟩

theorem named (h : r.Serves others qs) : r.Named := by
  obtain ⟨taken, -, htables, -⟩ := h
  exact htables.named

theorem emit (h : r.Serves others qs) (typed : e.WellTyped sizes) (asked : e.requests stage ⊆ qs)
    {outcome : Except Issue Glsl.Term} (run : (emit stage e).run.run r = (outcome, r')) :
    r'.Serves others qs := by
  have hnamed := h.named
  obtain ⟨before, hbefore, htables, hcategories⟩ := h
  obtain ⟨taken, hinitial, htakes⟩ := Takes.emit others typed hnamed run
  refine ⟨before ++ taken, ?_, ?_, ?_⟩
  · rw [List.append_subset]
    exact ⟨hbefore, fun q hq => asked (hinitial.subset hq)⟩
  · simpa using htakes.tables htables
  · rw [htakes.categories, hcategories, Requests.texts_append, Categories.registerEach_append]

/-- Where all requests go together, none of them is refused. -/
theorem not_admissible (h : r.Serves others qs) (typed : e.WellTyped sizes)
    (asked : e.requests stage ⊆ qs) {i : Issue}
    (run : (ShaderStyle.emit stage e).run.run r = (.error i, r')) : ¬qs.Admissible := by
  intro hadmissible
  obtain ⟨taken, htaken, htables, hcategories⟩ := h
  have hpart : taken.Admissible := hadmissible.of_subset htaken
  have hrecords : r.Records others taken := ⟨htables, hcategories, hpart.numbers, hpart.texts⟩
  have hends := hrecords.emit typed stage
  rw [Ends, run] at hends
  refine hends (hadmissible.of_subset ?_)
  rw [List.append_subset]
  exact ⟨htaken, asked⟩

end Serves

end ShaderStyle.Registry
