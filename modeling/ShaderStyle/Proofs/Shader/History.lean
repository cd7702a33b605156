import ShaderStyle.Proofs.OrderedMap.History
import ShaderStyle.Proofs.Shader

/-! What a shader declares after any calls: the first declaration of a name stands, a later one at
odds with it is refused and changes nothing, and a call touches nothing but what it is about. -/
namespace ShaderStyle.Shader

namespace Call

def uniform? : Call → Option (String × String)
  | .addUniform name type => some (name, type)
  | _ => none

def attribute? : Call → Option (String × String)
  | .addAttribute name type => some (name, type)
  | _ => none

def varying? : Call → Option (String × Varying)
  | .addVarying v => some (v.name, v)
  | _ => none

/-- The source that the call adds to a stage. -/
def source? (stage : Stage) : Call → Option String
  | .addFunction other source => if other = stage then some source else none
  | _ => none

/-- The call declares a name otherwise than its first declaration among `earlier` calls. -/
def Contradicts (earlier : List Call) (conflict : Conflict) : Call → Prop
  | .addUniform name type => ∃ first, (earlier.filterMap uniform?).lookup name = some first ∧
      first ≠ type ∧ .retyped "uniform" name first type = conflict
  | .addAttribute name type => ∃ first, (earlier.filterMap attribute?).lookup name = some first ∧
      first ≠ type ∧ .retyped "attribute" name first type = conflict
  | .addVarying v => ∃ first, (earlier.filterMap varying?).lookup v.name = some first ∧
      (first.type ≠ v.type ∨ first.expression ≠ v.expression) ∧ .varying first v = conflict
  | .addFunction _ _ => False

/-- An earlier call declared the name, or added the function. -/
def Repeats (earlier : List Call) : Call → Prop
  | .addUniform name _ => name ∈ (earlier.filterMap uniform?).map Prod.fst
  | .addAttribute name _ => name ∈ (earlier.filterMap attribute?).map Prod.fst
  | .addVarying v => v.name ∈ (earlier.filterMap varying?).map Prod.fst
  | .addFunction stage source => source ∈ earlier.filterMap (source? stage)

/-- The shader `s'` differs from `s` at most in what the call is about. -/
structure Spares (call : Call) (s s' : Shader) : Prop where
  uniforms : call.uniform? = none → s'.uniforms = s.uniforms
  attributes : call.attribute? = none → s'.attributes = s.attributes
  varyings : call.varying? = none → s'.varyings = s.varyings
  functions (stage : Stage) : call.source? stage = none → s'.functions stage = s.functions stage
  slots : s'.slots = s.slots
  rotateWithView : s'.rotateWithView = s.rotateWithView

end Call

/-- The shader after some calls, whether they are refused or not. -/
def after (s : Shader) (calls : List Call) : Shader := calls.foldl (fun s call => (s.serve call).2) s

theorem after_concat (s : Shader) (calls : List Call) (call : Call) :
    s.after (calls ++ [call]) = ((s.after calls).serve call).2 := by
  rw [after, List.foldl_append]
  rfl

section Serve

variable {family name type : String} {decls : OrderedMap String String}

/-- A declaration loads or stores the type, and is refused where it loads another one. A map that
loads is the map as it was, so that nothing has to be undone. -/
theorem settle_declare {s : Shader} {put : OrderedMap String String → Shader} (h : put decls = s) :
    s.settle ((declare family decls name type).map put) =
      let first := (decls.loadOrStore name type).1.1
      (if first = type then none else some (.retyped family name first type),
        put (decls.loadOrStore name type).2) := by
  rw [declare]
  cases hget : decls.get? name with
  | none =>
    rw [OrderedMap.loadOrStore_none hget]
    dsimp only
    rw [if_pos rfl]
    rfl
  | some first =>
    rw [OrderedMap.loadOrStore_some hget]
    dsimp only
    split
    · rfl
    · rw [h]
      rfl

theorem serve_uniform (s : Shader) (name type : String) : s.serve (.addUniform name type) =
    let first := (s.uniforms.loadOrStore name type).1.1
    (if first = type then none else some (.retyped "uniform" name first type),
      { s with uniforms := (s.uniforms.loadOrStore name type).2 }) :=
  settle_declare rfl

theorem serve_attribute (s : Shader) (name type : String) : s.serve (.addAttribute name type) =
    let first := (s.attributes.loadOrStore name type).1.1
    (if first = type then none else some (.retyped "attribute" name first type),
      { s with attributes := (s.attributes.loadOrStore name type).2 }) :=
  settle_declare rfl

theorem serve_varying (s : Shader) (v : Varying) : s.serve (.addVarying v) =
    let first := (s.varyings.loadOrStore v.name v).1.1
    (if first = v then none else some (.varying first v),
      { s with varyings := (s.varyings.loadOrStore v.name v).2 }) := by
  rw [serve, addVarying]
  cases hget : s.varyings.get? v.name with
  | none =>
    rw [OrderedMap.loadOrStore_none hget]
    dsimp only
    rw [if_pos rfl]
    rfl
  | some first =>
    rw [OrderedMap.loadOrStore_some hget]
    dsimp only
    split
    · rfl
    · rfl

theorem functions_serve (s : Shader) (call : Call) (stage : Stage) :
    (s.serve call).2.functions stage =
      match call.source? stage with
      | some source => addSource (s.functions stage) source
      | none => s.functions stage := by
  cases call with
  | addUniform name type =>
    rw [serve_uniform]
    rfl
  | addAttribute name type =>
    rw [serve_attribute]
    rfl
  | addVarying v =>
    rw [serve_varying]
    rfl
  | addFunction other source =>
    rw [serve, functions_addFunction, Call.source?]
    split
    · rfl
    · rfl

theorem spares_serve (s : Shader) (call : Call) : call.Spares s (s.serve call).2 := by
  have hfunctions (stage : Stage) (h : call.source? stage = none) :
      (s.serve call).2.functions stage = s.functions stage := by rw [functions_serve, h]
  cases call with
  | addUniform name type =>
    rw [serve_uniform] at hfunctions ⊢
    exact ⟨nofun, fun _ => rfl, fun _ => rfl, hfunctions, rfl, rfl⟩
  | addAttribute name type =>
    rw [serve_attribute] at hfunctions ⊢
    exact ⟨fun _ => rfl, nofun, fun _ => rfl, hfunctions, rfl, rfl⟩
  | addVarying v =>
    rw [serve_varying] at hfunctions ⊢
    exact ⟨fun _ => rfl, fun _ => rfl, nofun, hfunctions, rfl, rfl⟩
  | addFunction stage source =>
    cases stage with
    | vertex => exact ⟨fun _ => rfl, fun _ => rfl, fun _ => rfl, hfunctions, rfl, rfl⟩
    | fragment => exact ⟨fun _ => rfl, fun _ => rfl, fun _ => rfl, hfunctions, rfl, rfl⟩

end Serve

section After

theorem name_eq_of_lookup {calls : List Call} {name : String} {first : Varying}
    (h : (calls.filterMap Call.varying?).lookup name = some first) : first.name = name := by
  have hmem := OrderedMap.mem_entries_of_get? (m := ⟨calls.filterMap Call.varying?⟩) h
  obtain ⟨call, -, hcall⟩ := List.mem_filterMap.mp hmem
  cases call <;> cases hcall
  rfl

variable (calls : List Call)

/-- A family whose declarations load or store keeps the first of each name. -/
theorem keepsFirst_after {α : Type} {view : Shader → OrderedMap String α}
    {given? : Call → Option (String × α)} (hnew : view {} = .empty)
    (hserve : ∀ s call, view (s.serve call).2 =
      match given? call with
      | some (name, v) => ((view s).loadOrStore name v).2
      | none => view s) :
    (view (({} : Shader).after calls)).KeepsFirst (calls.filterMap given?) := by
  induction calls using List.reverseRecOn with
  | nil =>
    rw [after, List.foldl_nil, hnew]
    exact .empty
  | append_singleton calls call ih =>
    rw [after_concat, hserve, List.filterMap_append, List.filterMap_cons]
    cases given? call with
    | none => simpa using ih
    | some declaration => exact ih.loadOrStore declaration.1 declaration.2

theorem uniforms_after :
    (({} : Shader).after calls).uniforms.KeepsFirst (calls.filterMap Call.uniform?) := by
  refine keepsFirst_after calls rfl fun s call => ?_
  cases hcall : call.uniform? with
  | none => exact (spares_serve s call).uniforms hcall
  | some declaration =>
    cases call <;> cases hcall
    rw [serve_uniform]

theorem attributes_after :
    (({} : Shader).after calls).attributes.KeepsFirst (calls.filterMap Call.attribute?) := by
  refine keepsFirst_after calls rfl fun s call => ?_
  cases hcall : call.attribute? with
  | none => exact (spares_serve s call).attributes hcall
  | some declaration =>
    cases call <;> cases hcall
    rw [serve_attribute]

theorem varyings_after :
    (({} : Shader).after calls).varyings.KeepsFirst (calls.filterMap Call.varying?) := by
  refine keepsFirst_after calls rfl fun s call => ?_
  cases hcall : call.varying? with
  | none => exact (spares_serve s call).varyings hcall
  | some declaration =>
    cases call <;> cases hcall
    rw [serve_varying]

theorem functions_after (stage : Stage) :
    (({} : Shader).after calls).functions stage =
      (calls.filterMap (Call.source? stage)).eraseDups := by
  induction calls using List.reverseRecOn with
  | nil => cases stage <;> rfl
  | append_singleton calls call ih =>
    rw [after_concat, functions_serve, List.filterMap_append, List.filterMap_cons, ih]
    cases call.source? stage with
    | none => simp
    | some source =>
      rw [List.filterMap_nil]
      dsimp only
      unfold addSource
      split
      · next h => rw [eraseDups_concat_of_mem (List.mem_eraseDups.mp h)]
      · next h => rw [eraseDups_concat_of_notMem fun hmem => h (List.mem_eraseDups.mpr hmem)]

theorem slots_after : (({} : Shader).after calls).slots = Slot.initial ∧
    (({} : Shader).after calls).rotateWithView = false := by
  induction calls using List.reverseRecOn with
  | nil => exact ⟨rfl, rfl⟩
  | append_singleton calls call ih =>
    obtain ⟨-, -, -, -, hslots, hrotate⟩ := spares_serve (({} : Shader).after calls) call
    rw [after_concat, hslots, hrotate]
    exact ih

/-- A call is refused where it contradicts the first declaration of its name, and only there. -/
theorem refused_iff (call : Call) (conflict : Conflict) :
    ((({} : Shader).after calls).serve call).1 = some conflict ↔ call.Contradicts calls conflict := by
  cases call with
  | addUniform name type =>
    rw [serve_uniform]
    exact (uniforms_after calls).differs_iff (.retyped "uniform" name · type) conflict
  | addAttribute name type =>
    rw [serve_attribute]
    exact (attributes_after calls).differs_iff (.retyped "attribute" name · type) conflict
  | addVarying v =>
    have hname (first : Varying) (h : (calls.filterMap Call.varying?).lookup v.name = some first) :
        first ≠ v ↔ first.type ≠ v.type ∨ first.expression ≠ v.expression := by
      rw [← not_and_or, not_iff_not]
      have hsame := name_eq_of_lookup h
      obtain ⟨name, type, expression⟩ := first
      obtain ⟨name', type', expression'⟩ := v
      obtain rfl : name = name' := hsame
      simp
    rw [serve_varying]
    refine ((varyings_after calls).differs_iff (.varying · v) conflict).trans ?_
    refine exists_congr fun first => and_congr_right fun h => ?_
    rw [hname first h]
  | addFunction stage source => exact ⟨nofun, nofun⟩

/-- A call for what was declared or added before changes nothing, refused or not. -/
theorem serve_of_repeats {call : Call} (h : call.Repeats calls) :
    ((({} : Shader).after calls).serve call).2 = ({} : Shader).after calls := by
  cases call with
  | addUniform name type =>
    rw [serve_uniform]
    dsimp only
    rw [OrderedMap.loadOrStore_known ((uniforms_after calls).mem_keys_iff.mpr h)]
  | addAttribute name type =>
    rw [serve_attribute]
    dsimp only
    rw [OrderedMap.loadOrStore_known ((attributes_after calls).mem_keys_iff.mpr h)]
  | addVarying v =>
    rw [serve_varying]
    dsimp only
    rw [OrderedMap.loadOrStore_known ((varyings_after calls).mem_keys_iff.mpr h)]
  | addFunction stage source =>
    refine addFunction_of_mem ?_
    rw [functions_after]
    exact List.mem_eraseDups.mpr h

/-- After any calls on a new shader, every family lists its names once, in the order of their first
declarations and with what these say, and every stage has its functions in the order in which they
were first added. A further call is refused exactly where it contradicts the first declaration of
its name, changes nothing where the name was declared before, and touches nothing else. -/
theorem after_keepsFirst :
    let s : Shader := ({} : Shader).after calls
    s.uniforms.KeepsFirst (calls.filterMap Call.uniform?) ∧
      s.attributes.KeepsFirst (calls.filterMap Call.attribute?) ∧
      s.varyings.KeepsFirst (calls.filterMap Call.varying?) ∧
      (∀ stage, s.functions stage = (calls.filterMap (Call.source? stage)).eraseDups) ∧
      s.slots = Slot.initial ∧ s.rotateWithView = false ∧
      ∀ call, (∀ conflict, (s.serve call).1 = some conflict ↔ call.Contradicts calls conflict) ∧
        (call.Repeats calls → (s.serve call).2 = s) ∧ call.Spares s (s.serve call).2 := by
  intro s
  obtain ⟨hslots, hrotate⟩ := slots_after calls
  exact ⟨uniforms_after calls, attributes_after calls, varyings_after calls, functions_after calls,
    hslots, hrotate,
    fun call => ⟨refused_iff calls call, serve_of_repeats calls, spares_serve s call⟩⟩

-- The second type of the uniform is refused, and the second use of its name is no new function.
example :
    let s := ({} : Shader).after [.addUniform "u_width" "float", .addFunction .vertex "f",
      .addUniform "u_width" "vec2", .addFunction .vertex "f", .addAttribute "u_width" "vec2"]
    declarations s.uniforms = ["float u_width"] ∧ declarations s.attributes = ["vec2 u_width"] ∧
      s.functions .vertex = ["f"] := by
  decide

end After

end ShaderStyle.Shader
