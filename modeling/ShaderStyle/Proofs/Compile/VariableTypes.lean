import ShaderStyle.Proofs.Compile.Agreement
import ShaderStyle.Proofs.Emission.Records
import ShaderStyle.Proofs.Typing.Variables

/-! A compiled style depends on variables only through the types of their values: two compilations
run in step. -/
namespace ShaderStyle

namespace Compilation

theorem Channel.alike_outcome {vars vars' : Bindings} {ch : Channel}
    (same : ∀ name ∈ ch.raw.variableNames ch.path, SameTypes vars vars' name) :
    (ch.outcome vars).Alike (ch.outcome vars') := by
  unfold outcome
  split
  · exact alike_buildExpr same _ _
  · exact alike_buildOfType same _

theorem Channel.expr_eq_getD (vars : Bindings) (ch : Channel) :
    ch.expr vars = (ch.outcome vars).toOption.getD default := by
  unfold expr
  cases ch.outcome vars with
  | ok e => rfl
  | error is => rfl

/-- Compilations with the same registry, with issues on both sides or on none. -/
structure Parallel (vars vars' : Bindings) (c c' : Compilation) : Prop where
  vars_left : c.builder.vars = vars
  vars_right : c'.builder.vars = vars'
  registry : c.registry = c'.registry
  clean : c.builder.issues = [] ↔ c'.builder.issues = []

namespace Parallel

variable {vars vars' : Bindings} {c c' : Compilation}

theorem changeRegistry (h : Parallel vars vars' c c') (f : Registry → Registry) :
    Parallel vars vars' { c with registry := f c.registry }
      { c' with registry := f c'.registry } :=
  { h with registry := congrArg f h.registry }

/-- Issues on both sides, whatever they are. -/
theorem addIssues (h : Parallel vars vars' c c') {is is' : List Issue} (hne : is ≠ [])
    (hne' : is' ≠ []) :
    Parallel vars vars'
      { c with builder := { c.builder with issues := c.builder.issues ++ is } }
      { c' with builder := { c'.builder with issues := c'.builder.issues ++ is' } } :=
  { h with clean := by simp [hne, hne'] }

end Parallel

/-- A computation that two stores of variables do not tell apart. -/
def InStep {α : Type} (vars vars' : Bindings) (m : CompileM α) : Prop :=
  ∀ c c', Parallel vars vars' c c' →
    (m.run c).1 = (m.run c').1 ∧ Parallel vars vars' (m.run c).2 (m.run c').2

namespace InStep

variable {α β : Type} {vars vars' : Bindings}

theorem pure (a : α) : InStep vars vars' (Pure.pure a) := fun _ _ h => ⟨rfl, h⟩

theorem bind {m : CompileM α} {f : α → CompileM β} (h : InStep vars vars' m)
    (h' : ∀ a, InStep vars vars' (f a)) : InStep vars vars' (m >>= f) := by
  intro c c' hc
  obtain ⟨hvalue, hrest⟩ := h c c' hc
  change ((f (m.run c).1).run (m.run c).2).1 = ((f (m.run c').1).run (m.run c').2).1 ∧
    Parallel vars vars' ((f (m.run c).1).run (m.run c).2).2 ((f (m.run c').1).run (m.run c').2).2
  rw [← hvalue]
  exact h' _ _ _ hrest

theorem issue (i : Issue) : InStep vars vars' (Compilation.issue i) :=
  fun _ _ h => ⟨rfl, h.addIssues (List.cons_ne_nil i []) (List.cons_ne_nil i [])⟩

theorem changeShader (f : Shader → Shader) : InStep vars vars' (Compilation.changeShader f) :=
  fun _ _ h => ⟨rfl, h.changeRegistry fun r => { r with shader := f r.shader }⟩

theorem setSlot (slot : Slot) (text : String) :
    InStep vars vars' (Compilation.setSlot slot text) := changeShader _

/-- A part that may be left out. -/
theorem optional {given : Bool} {m : CompileM Unit} {k : CompileM β}
    (hm : given = true → InStep vars vars' m) (hk : InStep vars vars' k) :
    InStep vars vars' (do
      if given then m
      k) := by
  cases given with
  | true => exact (hm rfl).bind fun _ => hk
  | false => exact hk

theorem optionalLast {given : Bool} {m : CompileM Unit} (hm : given = true → InStep vars vars' m) :
    InStep vars vars' (if given then m else Pure.pure ()) := by
  cases given with
  | true => exact hm rfl
  | false => exact pure ()

theorem emitChannel (path : Path) (e : Expr) (stage : Stage) :
    InStep vars vars' (Compilation.emitChannel path e stage) := by
  intro c c' h
  rw [run_emitChannel, run_emitChannel, ← h.registry]
  rcases (emit stage e).run.run c.registry with ⟨outcome, r⟩
  cases outcome with
  | ok t => exact ⟨rfl, { h with registry := rfl }⟩
  | error i =>
    have hissues := h.addIssues (List.cons_ne_nil i []) (List.cons_ne_nil i [])
    exact ⟨rfl, { hissues with registry := rfl }⟩

/-- A channel is built to the same expression or on neither side. -/
theorem buildAndEmit (ch : Channel)
    (same : ∀ name ∈ ch.raw.variableNames ch.path, SameTypes vars vars' name)
    {build : Builder → Option Expr × Builder}
    (hbuild : ∀ b, build b = b.collect (ch.outcome b.vars)) :
    InStep vars vars' (Compilation.buildAndEmit ch.path build ch.stage) := by
  intro c c' h
  have halike := Channel.alike_outcome same
  rw [← h.vars_left, ← h.vars_right] at halike
  cases houtcome : ch.outcome c.builder.vars with
  | ok e =>
    cases houtcome' : ch.outcome c'.builder.vars with
    | ok e' =>
      rw [houtcome, houtcome'] at halike
      obtain rfl : e = e' := Option.some.inj halike
      rw [run_buildAndEmit_ok hbuild houtcome, run_buildAndEmit_ok hbuild houtcome']
      exact emitChannel ch.path e ch.stage c c' h
    | error is' =>
      rw [houtcome, houtcome'] at halike
      cases halike
  | error is =>
    cases houtcome' : ch.outcome c'.builder.vars with
    | ok e' =>
      rw [houtcome, houtcome'] at halike
      cases halike
    | error is' =>
      have hne : is ≠ [] := fun hnil => ch.reports_outcome _ (hnil ▸ houtcome)
      have hne' : is' ≠ [] := fun hnil => ch.reports_outcome _ (hnil ▸ houtcome')
      rw [run_buildAndEmit_error hbuild houtcome, run_buildAndEmit_error hbuild houtcome']
      exact ⟨rfl, h.addIssues hne hne'⟩

theorem channel {path : Path} {raw : Value}
    (same : ∀ name ∈ raw.variableNames path, SameTypes vars vars' name) (expected : TypeSet)
    (stage : Stage) : InStep vars vars' (Compilation.channel path raw expected stage) :=
  buildAndEmit ⟨path, raw, .kinds expected, stage⟩ same fun _ => rfl

theorem typedChannel {path : Path} {raw : Value}
    (same : ∀ name ∈ raw.variableNames path, SameTypes vars vars' name) (want : Ty)
    (stage : Stage) : InStep vars vars' (Compilation.typedChannel path raw want stage) :=
  buildAndEmit ⟨path, raw, .type want, stage⟩ same fun _ => rfl

/-- A channel whose code fills a slot, before the rest. -/
theorem fill {m : CompileM (Option String)} (h : InStep vars vars' m) (slot : Slot)
    (wrap : String → String) {k : Option String → CompileM β}
    (hk : ∀ a, InStep vars vars' (k a)) :
    InStep vars vars' (do
      let a ← m
      if let some t := a then Compilation.setSlot slot (wrap t)
      k a) := by
  refine h.bind fun a => ?_
  cases a with
  | none => exact hk none
  | some t => exact (setSlot slot (wrap t)).bind fun _ => hk (some t)

theorem fillLast {m : CompileM (Option String)} (h : InStep vars vars' m) (slot : Slot)
    (wrap : String → String) :
    InStep vars vars' (do if let some t ← m then Compilation.setSlot slot (wrap t)) := by
  refine h.bind fun a => ?_
  cases a with
  | none => exact pure ()
  | some t => exact setSlot slot (wrap t)

theorem texture (path : Path) (text : String) :
    InStep vars vars' (do
      match (← get).registry.shader.addUniform textureUniform "sampler2D" with
      | .error conflict => Compilation.issue ⟨path, .redeclared conflict⟩
      | .ok shader =>
        Compilation.changeShader fun _ => shader
        Compilation.setSlot .symbolColor text) := by
  intro c c' h
  have hget (f : Compilation → CompileM Unit) (c : Compilation) :
      (MonadState.get >>= f).run c = (f c).run c := rfl
  rw [hget, hget, ← h.registry]
  cases c.registry.shader.addUniform textureUniform "sampler2D" with
  | error conflict => exact issue _ c c' h
  | ok shader => exact (changeShader _).bind (fun _ => setSlot _ _) c c' h

theorem symbolFragment {s : Symbol}
    (same : ∀ name ∈ (sizeChannel s .fragment).raw.variableNames (sizeChannel s .fragment).path,
      SameTypes vars vars' name) (color opacity : String) :
    InStep vars vars'
      (Compilation.symbolFragment s (orDefault s.size (decimal 1)) color opacity) := by
  refine (channel same _ _).bind fun size => ?_
  cases size with
  | none => exact pure ()
  | some size =>
    refine (setSlot _ _).bind fun _ => ?_
    cases Shape.ofName? s.symbolType with
    | none => exact issue _
    | some shape =>
      cases s.texture? with
      | none => exact setSlot _ _
      | some src => exact texture _ _

end InStep

end Compilation

open Compilation

/-- The style variables that a style refers to. -/
def Style.variableNames (s : Style) : List String :=
  s.channels.flatMap fun ch => ch.raw.variableNames ch.path

namespace Compilation.InStep

variable {vars vars' : Bindings}

theorem symbol {s : Symbol}
    (same : ∀ ch ∈ [sizeChannel s .vertex, offsetChannel s, textureCoordChannel s,
      rotationChannel s, colorChannel s, opacityChannel s],
      ∀ name ∈ ch.raw.variableNames ch.path, SameTypes vars vars' name) :
    InStep vars vars' (Compilation.symbol s) := by
  refine fill (channel (same (sizeChannel s .vertex) (by simp)) _ _) .symbolSize vec2Text
    fun size => ?_
  refine fill (typedChannel (same (offsetChannel s) (by simp)) _ _) .symbolOffset (fun t => t)
    fun _ => ?_
  refine fill (typedChannel (same (textureCoordChannel s) (by simp)) _ _) .texCoord (fun t => t)
    fun _ => ?_
  refine fill (channel (same (rotationChannel s) (by simp)) _ _) .symbolRotation (fun t => t)
    fun _ => ?_
  refine (changeShader _).bind fun _ => ?_
  refine (channel (same (colorChannel s) (by simp)) _ _).bind fun color => ?_
  refine (channel (same (opacityChannel s) (by simp)) _ _).bind fun opacity => ?_
  cases size with
  | none => exact pure ()
  | some size =>
    cases color with
    | none => exact pure ()
    | some color =>
      cases opacity with
      | none => exact pure ()
      | some opacity => exact symbolFragment (same (sizeChannel s .vertex) (by simp)) color opacity

theorem stroke {color width : Value}
    (hcolor : (!color.isNull) = true → ∀ name ∈ color.variableNames ⟨"stroke-color"⟩,
      SameTypes vars vars' name)
    (hwidth : (!width.isNull) = true → ∀ name ∈ width.variableNames ⟨"stroke-width"⟩,
      SameTypes vars vars' name) : InStep vars vars' (Compilation.stroke color width) := by
  have hlast (hnull : (!width.isNull) = true) :
      InStep vars vars' (Compilation.strokeWidth width) := by
    refine (channel (hwidth hnull) _ _).bind fun a => ?_
    cases a with
    | none => exact pure ()
    | some t =>
      refine (setSlot .strokeWidth t).bind fun _ => ?_
      exact fillLast (channel (hwidth hnull) _ _) .strokeWidthFragment fun t => t
  unfold Compilation.stroke
  cases hnull : !color.isNull with
  | true =>
    exact fill (channel (hcolor hnull) _ _) .strokeColor (fun t => t) fun _ => optionalLast hlast
  | false => exact optionalLast hlast

theorem channels {s : Style} (same : ∀ name ∈ s.variableNames, SameTypes vars vars' name) :
    InStep vars vars' (Compilation.channels s) := by
  have hsame {ch : Channel} (hch : ch ∈ s.channels) :
      ∀ name ∈ ch.raw.variableNames ch.path, SameTypes vars vars' name :=
    fun name hname => same name (List.mem_flatMap.mpr ⟨ch, hch, hname⟩)
  have hfilter (hnull : (!s.filter.isNull) = true) :
      InStep vars vars' (Compilation.filter s.filter) := by
    have hch : filterChannel s.filter ∈ s.channels := by simp [Style.channels, hnull]
    exact fillLast (channel (hsame hch) _ _) .discard fun t => "!" ++ t
  have hstroke : InStep vars vars' (Compilation.stroke s.strokeColor s.strokeWidth) := by
    refine stroke (fun hnull => ?_) fun hnull => ?_
    · have hch : strokeColorChannel s.strokeColor ∈ s.channels := by simp [Style.channels, hnull]
      exact hsame hch
    · have hch : strokeWidthChannel s.strokeWidth .vertex ∈ s.channels := by
        simp [Style.channels, hnull]
      exact hsame hch
  have hfill (hgiven : s.hasFill = true) : InStep vars vars' (Compilation.fill s.fillColor) := by
    have hch : fillColorChannel s.fillColor ∈ s.channels := by
      unfold Style.hasFill at hgiven
      simp [Style.channels, hgiven]
    exact fillLast (channel (hsame hch) _ _) .fillColor fun t => t
  have hrest : InStep vars vars' (do
      if s.hasStroke then Compilation.stroke s.strokeColor s.strokeWidth
      if s.hasFill then Compilation.fill s.fillColor) :=
    optional (fun _ => hstroke) (optionalLast hfill)
  refine optional hfilter ?_
  cases hsymbol : s.symbol with
  | none => exact hrest
  | some sym =>
    refine (symbol fun ch hch => hsame ?_).bind fun _ => hrest
    simp only [Style.channels, hsymbol, List.mem_append]
    exact Or.inr (Or.inl (List.mem_append_left _ hch))

end Compilation.InStep

/-- The texts that the channels of a style compare with, each once. -/
def Style.texts (s : Style) (vars : Bindings) : List String :=
  (s.channels.flatMap fun ch => (ch.expr vars).texts).eraseDups

/-- Results that can take each other's variables: they have the same shaders, which read the same
attributes and uniforms, and the texts of the style have the same numbers. -/
structure Result.SameShaders (s : Style) (r r' : Result) : Prop where
  shader : r.shader = r'.shader
  attributes : r.attributes = r'.attributes
  uniforms : r.uniforms = r'.uniforms
  texts : s.texts r.vars = s.texts r'.vars
  texts_first : s.texts r.vars <+: r.categories.names ∧ s.texts r'.vars <+: r'.categories.names

theorem texts_of_compile {s : Style} {store : Option Bindings} {r : Result} {log : List LogEntry}
    (h : compile s store = (.ok r, log)) : s.texts r.vars <+: r.categories.names := by
  have hfirst : s.texts r.vars = (({} : Categories).registerEach
      (s.channels.flatMap fun ch => (ch.expr r.vars).literals)).names := by
    rw [Categories.names_registerEach, Style.texts]
    simp only [Expr.texts_eq]
  rw [hfirst, categories_of_compile h]
  exact (Categories.grows_registerEach _ _).names

theorem Style.texts_congr {s : Style} {vars vars' : Bindings}
    (same : ∀ name ∈ s.variableNames, SameTypes vars vars' name) :
    s.texts vars = s.texts vars' := by
  have hexpr {ch : Channel} (hch : ch ∈ s.channels) : ch.expr vars = ch.expr vars' := by
    have halike : (ch.outcome vars).toOption = (ch.outcome vars').toOption :=
      Channel.alike_outcome fun name hname => same name (List.mem_flatMap.mpr ⟨ch, hch, hname⟩)
    rw [Channel.expr_eq_getD, Channel.expr_eq_getD, halike]
  rw [texts, texts, List.flatMap_congr fun ch hch => by rw [hexpr hch]]

/-- The compiled shaders depend on variables only through their types. Where two stores agree on
the types of all variables that a style refers to, it compiles with both or with neither, and the
results have the same shaders and tables. -/
theorem compile_sameShaders {s : Style} {store store' : Option Bindings}
    (same : ∀ name ∈ s.variableNames,
      SameTypes (store.getD (s.vars.getD .empty)) (store'.getD (s.vars.getD .empty)) name) :
    ((compile s store).1.isOk = true ↔ (compile s store').1.isOk = true) ∧
      ∀ r r', (compile s store).1 = .ok r → (compile s store').1 = .ok r' → r.SameShaders s r' := by
  have hstart : Parallel (store.getD (s.vars.getD .empty)) (store'.getD (s.vars.getD .empty))
      (initial s store) (initial s store') := ⟨rfl, rfl, rfl, Iff.rfl⟩
  obtain ⟨-, hparallel⟩ := InStep.channels same _ _ hstart
  rcases hrun : (Compilation.channels s).run (initial s store) with ⟨⟨⟩, c⟩
  rcases hrun' : (Compilation.channels s).run (initial s store') with ⟨⟨⟩, c'⟩
  rw [hrun, hrun'] at hparallel
  have hfirst := compile_fst hrun
  have hsecond := compile_fst hrun'
  have hclean := hparallel.clean
  cases hissues : c.builder.issues with
  | cons i is =>
    obtain ⟨i', is', hissues'⟩ : ∃ i' is', c'.builder.issues = i' :: is' :=
      List.exists_cons_of_ne_nil fun hnil => by
        rw [hissues] at hclean
        cases hclean.mpr hnil
    rw [hissues] at hfirst
    rw [hissues'] at hsecond
    rw [hfirst, hsecond]
    refine ⟨Iff.rfl, fun r r' hr => ?_⟩
    cases hr
  | nil =>
    rw [hissues] at hfirst
    rw [hclean.mp hissues] at hsecond
    refine ⟨by rw [hfirst, hsecond]; rfl, fun r r' hr hr' => ?_⟩
    have htexts := texts_of_compile (Prod.ext hr rfl : compile s store = (.ok r, _))
    have htexts' := texts_of_compile (Prod.ext hr' rfl : compile s store' = (.ok r', _))
    rw [hfirst, result_eq] at hr
    rw [hsecond, result_eq] at hr'
    cases hr
    cases hr'
    have hregistry := hparallel.registry
    exact {
      shader := congrArg Registry.shader hregistry
      attributes := congrArg (fun r => r.attributes.values) hregistry
      uniforms := congrArg (fun r => r.vars.values) hregistry
      texts := by
        have hvars := hparallel.vars_left
        have hvars' := hparallel.vars_right
        dsimp only at hvars hvars' ⊢
        rw [hvars, hvars']
        exact Style.texts_congr same
      texts_first := ⟨htexts, htexts'⟩ }

/-- A fill by the kind that is selected, and a width that can be set. -/
private def selection : Style where
  fillColor := .list [.text "match", .list [.text "var", .text "kind"],
    .text "road", .text "red", .text "blue"]
  strokeWidth := .list [.text "var", .text "width"]

private def rails : Bindings :=
  .ofList [("kind", .text "rail"), ("width", .double (.finite 2))]

private def rivers : Bindings :=
  .ofList [("width", .integer .int 5), ("kind", .text "river")]

theorem compile_sameShaders_selection :
    ∃ r r', (compile selection (some rails)).1 = .ok r ∧
      (compile selection (some rivers)).1 = .ok r' ∧ r.categories.names = ["road", "rail"] ∧
      r'.categories.names = ["road", "river"] ∧ r.SameShaders selection r' := by
  have hsame : ∀ name ∈ selection.variableNames, SameTypes rails rivers name := by decide +kernel
  have hrails : (match (compile selection (some rails)).1 with
      | .ok r => decide (r.categories.names = ["road", "rail"])
      | .error _ => false) = true := by decide +kernel
  have hrivers : (match (compile selection (some rivers)).1 with
      | .ok r => decide (r.categories.names = ["road", "river"])
      | .error _ => false) = true := by decide +kernel
  have hshaders : ∀ r r', (compile selection (some rails)).1 = .ok r →
      (compile selection (some rivers)).1 = .ok r' → r.SameShaders selection r' :=
    (compile_sameShaders hsame).2
  cases hrun : (compile selection (some rails)).1 with
  | error is =>
    rw [hrun] at hrails
    cases hrails
  | ok r =>
    cases hrun' : (compile selection (some rivers)).1 with
    | error is =>
      rw [hrun'] at hrivers
      cases hrivers
    | ok r' =>
      rw [hrun] at hrails
      rw [hrun'] at hrivers
      exact ⟨r, r', rfl, rfl, of_decide_eq_true hrails, of_decide_eq_true hrivers,
        hshaders r r' hrun hrun'⟩

end ShaderStyle
