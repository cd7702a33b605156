import ShaderStyle.Proofs.Compile.Agreement
import ShaderStyle.Proofs.Compile.Tables
import ShaderStyle.Proofs.Emission.TypeCheck

/-! Encoded values are as wide as the declarations that they are written to. -/
namespace ShaderStyle

open Compilation (Channel Event textureUniform styleEvents channels_styleEvents)
open Glsl (ValueType)

theorem length_padded (n : Nat) (xs : List Double) : (padded n xs).length = n := by
  rw [padded, List.length_append, List.length_take, List.length_replicate]
  omega

/-- Whatever a value is, its encoding has the width of the type. -/
theorem length_encode (type : Ty) (c : Categories) (value : Option Value) :
    (encode type c value).length = Glsl.storageSize type := by
  cases type with
  | number | boolean => rfl
  | string =>
    rw [Categories.encode_string]
    rfl
  | color =>
    unfold encode
    dsimp only
    split
    · rfl
    · rfl
  | array n => exact length_padded n _
  | invalid => rfl

/-- How many numbers a declaration such as `vec2 a_tint` takes, by the type before the blank. -/
def Shader.width? (declaration : String) : Option Nat :=
  (ValueType.ofName? (String.ofList (declaration.toList.takeWhile (· ≠ ' ')))).map
    ValueType.components

theorem Shader.width?_declaration {type : Ty} (sized : type.Sized IsVectorSize) (ident : String) :
    width? (Glsl.storageTypeName type ++ " " ++ ident) = some (Glsl.storageSize type) := by
  have hwidth (name : String) (blank : name.toList.takeWhile (· ≠ ' ') = name.toList) :
      width? (name ++ " " ++ ident) = (ValueType.ofName? name).map ValueType.components := by
    have hstop : (name ++ " " ++ ident).toList.takeWhile (· ≠ ' ') = name.toList := by
      rw [String.toList_append, String.toList_append, List.append_assoc, List.takeWhile_append,
        if_pos (by rw [blank])]
      exact List.append_nil _
    rw [width?, hstop, String.ofList_toList]
  cases type with
  | array n =>
    have hn : n = 2 ∨ n = 3 ∨ n = 4 := by
      obtain ⟨hlow, hhigh⟩ : 2 ≤ n ∧ n ≤ 4 := sized
      omega
    rcases hn with rfl | rfl | rfl <;> exact hwidth _ (by decide)
  | invalid => exact sized.elim
  | _ => exact hwidth _ (by decide)

/-- The expression of a channel has arrays of two to four components, if the channel asks for no
others. -/
theorem Compilation.Channel.sized {vars : Bindings} {ch : Channel} {e : Expr}
    (goal : ∀ n, ch.goal = .type (.array n) → IsVectorSize n) (h : ch.outcome vars = .ok e) :
    e.WellTyped IsVectorSize := by
  unfold outcome at h
  split at h
  · have hdefault : IsVectorSize defaultArraySize := by decide
    exact (buildExpr_sound (fun _ hn => hn) hdefault h).2
  · next want hgoal =>
    refine (buildOfType_sound (fun _ hn => hn) (fun n hn => goal n ?_) h).2
    rw [hgoal, hn]

theorem forall_mem_given {α : Type} {given : Bool} {P : α → Prop} {xs : List α}
    (h : ∀ x ∈ xs, P x) : ∀ x ∈ (if given then xs else []), P x := by
  cases given with
  | true => exact h
  | false => simp

/-- The channels of a style ask for arrays of two and of four components. -/
theorem Style.goal_sized (s : Style) :
    ∀ ch ∈ s.channels, ∀ n, ch.goal = .type (.array n) → IsVectorSize n := by
  unfold channels
  simp only [List.forall_mem_append]
  refine ⟨forall_mem_given ?_, ?_, forall_mem_given ?_, forall_mem_given ?_, forall_mem_given ?_⟩
  · simp [Compilation.filterChannel]
  · cases s.symbol with
    | none => simp
    | some sym =>
      simp [Compilation.sizeChannel, Compilation.offsetChannel, Compilation.textureCoordChannel,
        Compilation.rotationChannel, Compilation.colorChannel, Compilation.opacityChannel,
        IsVectorSize]
  · simp [Compilation.strokeColorChannel]
  · simp [Compilation.strokeWidthChannel]
  · simp [Compilation.fillColorChannel]

theorem Reference.Typed.entries {allowed : Ty → Prop} {ref : Reference} (h : ref.Typed allowed) :
    ∀ p ∈ ref.properties ++ ref.styleVariables, allowed p.2 := by
  intro p hp
  cases ref with
  | property | styleVariable =>
    obtain rfl := List.mem_singleton.mp hp
    exact h
  | text | number => cases hp

section

variable {s : Style} {store : Option Bindings} {r : Result} {log : List LogEntry}

/-- The tables that a compilation leaves, with the types of their entries. -/
theorem tables_of_compile (h : compile s store = (.ok r, log)) :
    ∃ (registry : Registry) (properties passed styleVariables : List (String × Ty)),
      registry.Tables [textureUniform] properties passed styleVariables ∧
      (∀ p ∈ properties ++ styleVariables, p.2.Sized IsVectorSize) ∧
      r.shader = registry.shader ∧ r.attributes = registry.attributes.values ∧
      r.uniforms = registry.vars.values := by
  obtain ⟨registry, htrace, -, hshader, hattributes, huniforms, -⟩ := compile_ok h
  refine ⟨registry, _, _, _, htrace.records_all.tables, fun p hp => ?_, hshader, hattributes,
    huniforms⟩
  -- Every entry goes back to a reference of a channel, and those have types of the right sizes.
  have htyped : ∀ q ∈ (styleEvents (Channel.code r.vars r.categories) s).flatMap
      (Event.requests r.vars), q.2.Typed (Ty.Sized IsVectorSize) := by
    intro q hq
    obtain ⟨ch, hevent, href⟩ := Compilation.exists_emitted_of_mem_requests hq
    have hch : ch ∈ s.channels := by
      rw [← channels_styleEvents (Channel.code r.vars r.categories)]
      exact List.mem_filterMap.mpr ⟨_, hevent, rfl⟩
    have htyped := Channel.sized (s.goal_sized ch hch) (htrace.outcome_eq hevent)
    exact htyped.references_typed _ href
  rcases List.mem_append.mp hp with hp | hp
  · obtain ⟨q, hq, hp⟩ := List.mem_flatMap.mp hp
    exact (htyped q hq).entries p (List.mem_append_left _ hp)
  · obtain ⟨q, hq, hp⟩ := List.mem_flatMap.mp hp
    exact (htyped q hq).entries p (List.mem_append_right _ hp)

/-- Using a result changes neither its attributes nor its shaders. -/
theorem Result.attributes_after (r : Result) (uses : List Result.Use) :
    (r.after uses).attributes = r.attributes := by
  induction uses generalizing r with
  | nil => rfl
  | cons use uses ih =>
    rw [after, List.foldl_cons, ← after, ih]
    cases use <;> rfl

theorem Result.uniforms_after (r : Result) (uses : List Result.Use) :
    (r.after uses).uniforms = r.uniforms := by
  induction uses generalizing r with
  | nil => rfl
  | cons use uses ih =>
    rw [after, List.foldl_cons, ← after, ih]
    cases use <;> rfl

/-- How the values of a result fit the declarations of its shaders, whatever features hold and
whatever the variables are set to. -/
structure Result.WidthsMatch (r : Result) : Prop where
  /-- Every attribute has its numbers. -/
  count (uses : List Result.Use) (feature : Bindings) :
    ((r.after uses).extract feature).length = r.attributes.length ∧
      (Shader.declarations r.shader.attributes).length = r.attributes.length
  /-- The numbers at a position have the size of the attribute there, which is the width of the
  declaration there. -/
  attributes (uses : List Result.Use) (feature : Bindings) {i : Nat}
    (hi : i < r.attributes.length) :
    ∃ numbers, ((r.after uses).extract feature)[i]? = some numbers ∧
      numbers.length = Glsl.storageSize r.attributes[i].type ∧
      (Shader.declarations r.shader.attributes)[i]?.bind Shader.width? = some numbers.length
  uniforms (uses : List Result.Use) {u : Variable} (hu : u ∈ r.uniforms) :
    ∃ type, r.shader.uniforms.get? u.ident = some type ∧
      Shader.width? (type ++ " " ++ u.ident) = some ((r.after uses).uniformValue u).length

/-- In every compiled style, what is encoded for an attribute or a uniform is as wide as its
declaration. -/
theorem compile_widthsMatch (h : compile s store = (.ok r, log)) : r.WidthsMatch := by
  obtain ⟨registry, properties, passed, styleVariables, htables, hsized, hshader, hattributes,
    huniforms⟩ := tables_of_compile h
  have hdeclared := htables.declarations_attributes
  rw [← hshader, ← hattributes] at hdeclared
  refine {
    count := fun uses feature => ⟨?_, ?_⟩
    attributes := fun uses feature {i} hi => ?_
    uniforms := fun uses {u} hu => ?_ }
  · rw [Result.extract, List.length_map, Result.attributes_after]
  · rw [hdeclared, List.length_map]
  · have hentry : r.attributes[i].type.Sized IsVectorSize := by
      have hmem : r.attributes[i] ∈ r.attributes := List.getElem_mem hi
      generalize r.attributes[i] = a at hmem
      rw [hattributes, htables.attributes.values] at hmem
      obtain ⟨p, hp, rfl⟩ := List.mem_map.mp hmem
      exact hsized p (List.mem_append_left _ (List.mem_eraseDups.mp hp))
    refine ⟨(r.after uses).attributeValue feature r.attributes[i], ?_, length_encode _ _ _, ?_⟩
    · rw [Result.extract, Result.attributes_after, List.getElem?_map, List.getElem?_eq_getElem hi]
      rfl
    · have hident : Glsl.storageTypeName r.attributes[i].type ++ " a_" ++
          Glsl.mangle r.attributes[i].name = Glsl.storageTypeName r.attributes[i].type ++ " " ++
            ("a_" ++ Glsl.mangle r.attributes[i].name) := by
        have hblank : " a_" = " " ++ "a_" := rfl
        rw [hblank]
        simp only [String.append_assoc]
      rw [hdeclared, List.getElem?_map, List.getElem?_eq_getElem hi, Option.map_some,
        Option.bind_some, hident, Shader.width?_declaration hentry]
      exact congrArg some (length_encode _ _ _).symm
  · rw [huniforms, htables.vars.values] at hu
    obtain ⟨p, hp, rfl⟩ := List.mem_map.mp hu
    have hp := List.mem_eraseDups.mp hp
    have hget : r.shader.uniforms.get? (Glsl.uniformName p.1) =
        some (Glsl.storageTypeName p.2) := by
      rw [hshader, ← OrderedMap.get?_without (htables.apart p.1)]
      exact htables.declared_uniforms.get?_key (fun a ha b hb same =>
        htables.coherent_variables.eq_of_mangle ha hb (Glsl.uniformName_eq_iff.mp same)) hp
    refine ⟨_, hget, ?_⟩
    rw [Registry.variableOf, Shader.width?_declaration (hsized p (List.mem_append_right _ hp))]
    exact congrArg some (length_encode _ _ _).symm

end

/-- A tint of the feature, and an offset and a kind that can be set. -/
private def marker : Style where
  symbol := some {
    symbolType := "square"
    color := .list [.text "get", .text "tint"]
    offset := .list [.text "var", .text "shift"]
    opacity := .list [.text "match", .list [.text "var", .text "kind"],
      .text "ghost", .double (.finite (1 / 2)), .list [.text "get", .text "alpha"]] }
  vars := some (.ofList [("shift", .doubles [.finite 1, .finite 2]), ("kind", .text "ghost")])

private def resets : List Result.Use := [.set "shift" (.text "left"), .set "kind" (.list [])]

theorem compile_widthsMatch_marker :
    ∃ r log, compile marker none = (.ok r, log) ∧
      Shader.declarations r.shader.attributes = ["vec2 a_tint", "float a_alpha"] ∧
      (r.extract (.ofList [("tint", .null), ("alpha", .text "high")])).map List.length = [2, 1] ∧
      Shader.declarations r.shader.uniforms = ["vec2 u_var_shift", "float u_var_kind"] ∧
      (r.uniforms.map fun u => ((r.after resets).uniformValue u).length) = [2, 1] ∧
      r.WidthsMatch := by
  have hcompile : (match (compile marker none).1 with
      | .ok r => decide (
          Shader.declarations r.shader.attributes = ["vec2 a_tint", "float a_alpha"] ∧
          (r.extract (.ofList [("tint", .null), ("alpha", .text "high")])).map List.length =
            [2, 1] ∧
          Shader.declarations r.shader.uniforms = ["vec2 u_var_shift", "float u_var_kind"] ∧
          (r.uniforms.map fun u => ((r.after resets).uniformValue u).length) = [2, 1])
      | .error _ => false) = true := by decide +kernel
  rcases hrun : compile marker none with ⟨outcome, log⟩
  rw [hrun] at hcompile
  cases outcome with
  | error is => cases hcompile
  | ok r =>
    obtain ⟨hattributes, hnumbers, huniforms, hvalues⟩ := of_decide_eq_true hcompile
    exact ⟨r, log, rfl, hattributes, hnumbers, huniforms, hvalues, compile_widthsMatch hrun⟩

end ShaderStyle
