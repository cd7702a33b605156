import ShaderStyle.Proofs.Emission.Records
import ShaderStyle.Proofs.Typing.Soundness

/-! Expressions emitted one after the other into one registry. -/
namespace ShaderStyle

/-- Emits expressions in order, up to the first that fails. -/
def emitAll (calls : List (Stage × Expr)) : RegistryM (List Glsl.Term) :=
  calls.mapM fun call => emit call.1 call.2

namespace Requests

/-- What emissions ask of the registry. -/
def ofCalls (calls : List (Stage × Expr)) : Requests := calls.flatMap fun call =>
  call.2.requests call.1

section OfCalls

variable (calls : List (Stage × Expr))

theorem properties_ofCalls : (ofCalls calls).properties = calls.flatMap (·.2.properties) := by
  simp only [ofCalls, properties, Expr.requests, List.flatMap_assoc, List.flatMap_map,
    Expr.properties_eq]

theorem styleVariables_ofCalls :
    (ofCalls calls).styleVariables = calls.flatMap (·.2.styleVariables) := by
  simp only [ofCalls, styleVariables, Expr.requests, List.flatMap_assoc, List.flatMap_map,
    Expr.styleVariables_eq]

theorem texts_ofCalls : (ofCalls calls).texts = calls.flatMap (·.2.texts) := by
  simp only [ofCalls, texts, Expr.requests, List.flatMap_assoc, List.flatMap_map, Expr.texts_eq,
    Expr.literals]

theorem numbers_ofCalls : (ofCalls calls).numbers = calls.flatMap (·.2.numbers) := by
  simp only [ofCalls, numbers, Expr.requests, List.flatMap_assoc, List.flatMap_map,
    Expr.numbers_eq]

theorem passed_ofCalls : (ofCalls calls).passed =
    (calls.filter fun call => call.1 = .fragment).flatMap (·.2.properties) := by
  rw [← properties_ofCalls, passed]
  congr 1
  induction calls with
  | nil => rfl
  | cons call calls ih =>
    obtain ⟨stage, e⟩ := call
    rw [ofCalls, List.flatMap_cons, List.filter_append, ← ofCalls, ih]
    cases stage with
    | vertex => simp [ofCalls, Expr.requests]
    | fragment => simp [ofCalls, Expr.requests]

end OfCalls

end Requests

/-- Emissions are accepted up to the first that does not go together with the earlier ones. -/
theorem Registry.Records.emitAll {others : List String} {qs : Requests} {r : Registry}
    (h : r.Records others qs) {sizes : Nat → Prop} {calls : List (Stage × Expr)}
    (typed : ∀ call ∈ calls, call.2.WellTyped sizes) :
    Ends (emitAll calls) r (fun _ r' => r'.Records others (qs ++ .ofCalls calls))
      (¬Requests.Admissible (qs ++ .ofCalls calls)) := by
  induction calls generalizing qs r with
  | nil => exact .of_ok rfl (by simpa [Requests.ofCalls] using h)
  | cons call calls ih =>
    have hsplit : qs ++ Requests.ofCalls (call :: calls) =
        (qs ++ call.2.requests call.1) ++ Requests.ofCalls calls := by simp [Requests.ofCalls]
    rw [ShaderStyle.emitAll, List.mapM_cons, hsplit]
    have hfirst := (h.emit (typed call (by simp)) call.1).mono (fun _ _ _ h₁ => h₁)
      fun hnot (hall : Requests.Admissible (_ ++ Requests.ofCalls calls)) => hnot hall.of_append
    refine hfirst.bind fun t r₁ _ h₁ => ?_
    refine (ih h₁ fun call hcall => typed call (by simp [hcall])).bind fun ts r₂ _ h₂ => ?_
    exact .of_ok rfl h₂

/-- A table with one entry for each name that is used, in the order of the first uses, and with the
type of all of them. -/
structure FirstUses (table uses : List (String × Ty)) : Prop where
  names : table.map Prod.fst = (uses.map Prod.fst).eraseDups
  types {p q : String × Ty} (hp : p ∈ table) (hq : q ∈ uses) (same : p.1 = q.1) : p.2 = q.2

theorem Coherent.firstUses {uses : List (String × Ty)} (h : Coherent uses) :
    FirstUses uses.eraseDups uses where
  names := map_eraseDups fun _ hp _ hq same => Prod.ext same (h.one_type hp hq same)
  types hp hq same := h.one_type (List.mem_eraseDups.mp hp) hq same

/-- What a registry holds, told from the nodes of the expressions that were emitted. -/
structure Registry.Reflects (calls : List (Stage × Expr)) (r : Registry) : Prop where
  attributes : FirstUses (r.attributes.values.map fun a => (a.name, a.type))
    (calls.flatMap (·.2.properties))
  styleVariables : FirstUses (r.vars.values.map fun v => (v.name, v.type))
    (calls.flatMap (·.2.styleVariables))
  unfrozen : r.categories.frozen = false
  texts : r.categories.names = (calls.flatMap (·.2.texts)).eraseDups
  /-- What the fragment shader reads is passed on, and nothing else. -/
  varyings : r.shader.varyings.values =
    ((calls.filter fun call => call.1 = .fragment).flatMap (·.2.properties)).eraseDups.map
      fun p => passing p.1 p.2
  passed {a : Attribute} (ha : a ∈ r.attributes.values) : a.varying.isSome = true ↔
    ∃ call ∈ calls, call.1 = .fragment ∧ (a.name, a.type) ∈ call.2.properties

/-- After expressions are emitted into a fresh registry, it lists exactly what their nodes refer
to, in the order in which they are visited. -/
theorem emitAll_reflects {calls : List (Stage × Expr)} {ts : List Glsl.Term} {r : Registry}
    (built : ∀ call ∈ calls, call.2.Built fun _ => True)
    (ran : (emitAll calls).run.run {} = (.ok ts, r)) : r.Reflects calls := by
  have hfresh : Registry.Records [] [] {} := Registry.records_fresh fun _ => List.not_mem_nil
  have hends := hfresh.emitAll fun call hcall => (built call hcall).wellTyped
  rw [Registry.Ends, ran] at hends
  obtain ⟨htables, hcategories, -, -⟩ := hends
  rw [List.nil_append, Requests.texts_ofCalls] at hcategories
  rw [List.nil_append, Requests.properties_ofCalls, Requests.passed_ofCalls,
    Requests.styleVariables_ofCalls] at htables
  have hattributes := htables.attributes.values
  have hvars := htables.vars.values
  refine {
    attributes := ?_
    styleVariables := ?_
    unfrozen := ?_
    texts := ?_
    varyings := htables.declared_varyings.values
    passed := fun {a} ha => ?_ }
  · rw [hattributes, List.map_map]
    change FirstUses (List.map id _) _
    rw [List.map_id]
    exact htables.coherent_properties.firstUses
  · rw [hvars, List.map_map]
    change FirstUses (List.map id _) _
    rw [List.map_id]
    exact htables.coherent_variables.firstUses
  · rw [hcategories]
    exact Categories.frozen_registerEach _ _
  · rw [hcategories]
    exact Categories.names_registerEach _
  · rw [hattributes] at ha
    obtain ⟨p, -, rfl⟩ := List.mem_map.mp ha
    by_cases hp : p ∈ (calls.filter fun call => call.1 = .fragment).flatMap (·.2.properties)
    · simp only [Registry.attributeOf, if_pos hp, Option.isSome_some, true_iff]
      obtain ⟨call, hcall, hmem⟩ := List.mem_flatMap.mp hp
      obtain ⟨hcall, hstage⟩ := List.mem_filter.mp hcall
      exact ⟨call, hcall, of_decide_eq_true hstage, hmem⟩
    · simp only [Registry.attributeOf, if_neg hp, Option.isSome_none, Bool.false_eq_true, false_iff]
      rintro ⟨call, hcall, hstage, hmem⟩
      refine hp (List.mem_flatMap.mpr ⟨call, ?_, hmem⟩)
      exact List.mem_filter.mpr ⟨hcall, decide_eq_true hstage⟩

/-- The expression of a value that can be built. -/
def builtFrom (path : Path) (raw : Value) (expected : TypeSet) : Expr :=
  ((Builder.build ⟨.empty, []⟩ path raw expected).1).getD default

theorem built_builtFrom {path : Path} {raw : Value} {expected : TypeSet}
    (h : (Builder.build ⟨.empty, []⟩ path raw expected).1.isSome = true) :
    (builtFrom path raw expected).Built fun _ => True := by
  obtain ⟨e, he⟩ := Option.isSome_iff_exists.mp h
  refine ⟨⟨.empty, []⟩, (Builder.build ⟨.empty, []⟩ path raw expected).2, path, raw,
    Or.inl ⟨expected, ?_⟩⟩
  rw [builtFrom, he]
  exact Prod.ext he rfl

/-- A tint that may be hidden, and a width by kind. -/
private def tintAndWidth : List (Stage × Expr) :=
  [(.fragment, builtFrom ⟨"fill-color"⟩
      (.list [.text "case", .list [.text "get", .text "hidden"], .list [.text "get", .text "shade"],
        .list [.text "get", .text "tint"]]) (.singleton .color)),
    (.vertex, builtFrom ⟨"stroke-width"⟩
      (.list [.text "match", .list [.text "get", .text "kind"],
        .text "low", .list [.text "get", .text "width"], .text "high", .double (.finite 2),
        .double (.finite 1)]) .numbers)]

theorem emitAll_reflects_tintAndWidth :
    ∃ ts r, (emitAll tintAndWidth).run.run {} = (.ok ts, r) ∧
      r.attributes.values.map Attribute.name = ["tint", "hidden", "shade", "kind", "width"] ∧
      r.categories.names = ["high", "low"] ∧ r.Reflects tintAndWidth := by
  have hbuilt : ∀ call ∈ tintAndWidth, call.2.Built fun _ => True := by
    intro call hcall
    simp only [tintAndWidth, List.mem_cons, List.not_mem_nil, or_false] at hcall
    rcases hcall with rfl | rfl
    · dsimp only
      exact built_builtFrom (by decide +kernel)
    · dsimp only
      exact built_builtFrom (by decide +kernel)
  have hrun : (match (emitAll tintAndWidth).run.run {} with
      | (.ok _, r) => decide (r.attributes.values.map Attribute.name =
          ["tint", "hidden", "shade", "kind", "width"] ∧ r.categories.names = ["high", "low"])
      | (.error _, _) => false) = true := by decide +kernel
  rcases hemit : (emitAll tintAndWidth).run.run {} with ⟨outcome, r⟩
  rw [hemit] at hrun
  cases outcome with
  | error i => cases hrun
  | ok ts =>
    obtain ⟨hnames, htexts⟩ := of_decide_eq_true hrun
    exact ⟨ts, r, rfl, hnames, htexts, emitAll_reflects hbuilt hemit⟩

end ShaderStyle
