import ShaderStyle.Compile
import ShaderStyle.Proofs.Emission.Literals
import ShaderStyle.Proofs.Typing.Reports

/-! What a compilation does to its registry, as a list of events. Where it reports no issue, the
events are those of the style, with the code that the last table of texts gives. -/
namespace ShaderStyle.Compilation

/-- What the expression of a channel has to be. -/
inductive Goal where
  | kinds (expected : TypeSet)
  | type (want : Ty)

/-- An expression of a style and where it is evaluated. -/
structure Channel where
  path : Path
  raw : Value
  goal : Goal
  stage : Stage

namespace Channel

def outcome (vars : Bindings) (ch : Channel) : Checked Expr :=
  match ch.goal with
  | .kinds expected => buildExpr ⟨vars, defaultArraySize⟩ ch.path ch.raw expected
  | .type want => buildOfType vars ch.path ch.raw want

/-- The expression of a channel that can be built. -/
def expr (vars : Bindings) (ch : Channel) : Expr :=
  match ch.outcome vars with
  | .ok e => e
  | .error _ => default

/-- The code of a channel, with the numbers that the table gives to texts. -/
def code (vars : Bindings) (categories : Categories) (ch : Channel) : String :=
  ((ch.expr vars).term ch.stage categories).text

theorem expr_eq {vars : Bindings} {ch : Channel} {e : Expr} (h : ch.outcome vars = .ok e) :
    ch.expr vars = e := by
  rw [expr, h]

theorem reports_outcome (vars : Bindings) (ch : Channel) : (ch.outcome vars).Reports := by
  unfold outcome
  split
  · exact reports_buildExpr _ _ _ _
  · exact reports_buildOfType _ _ _ _

theorem wellTyped {vars : Bindings} {ch : Channel} {e : Expr} (h : ch.outcome vars = .ok e) :
    e.WellTyped fun _ => True := by
  unfold outcome at h
  split at h
  · exact (buildExpr_sound (fun _ _ => trivial) trivial h).2
  · exact (buildOfType_sound (fun _ _ => trivial) (fun _ _ => trivial) h).2

/-- The code of a channel is the text of its emission, as long as the table only grows. -/
theorem code_eq {vars : Bindings} {ch : Channel} {e : Expr} (built : ch.outcome vars = .ok e)
    {r r' : Registry} (named : r.Named) {t : Glsl.Term}
    (ran : (emit ch.stage e).run.run r = (.ok t, r')) {final : Categories}
    (grows : r'.categories.Grows final) : ch.code vars final = t.text := by
  have typed := wellTyped built
  obtain ⟨rfl, hprovided⟩ := emit_ok typed named ran
  rw [code, expr_eq built, typed.term_eq_of_grows grows (Expr.settled_literals hprovided)]

end Channel

/-- What happens to the registry of a compilation. -/
inductive Event where
  | emitted (ch : Channel)
  | filled (slot : Slot) (text : String)
  | rotated (withView : Bool)
  | textured

inductive Event.Step (vars : Bindings) (r : Registry) : Event → Registry → Prop where
  | emitted {ch : Channel} {e : Expr} {t : Glsl.Term} {r' : Registry}
      (built : ch.outcome vars = .ok e) (ran : (emit ch.stage e).run.run r = (.ok t, r')) :
      Step vars r (.emitted ch) r'
  | filled (slot : Slot) (text : String) :
      Step vars r (.filled slot text) { r with shader := r.shader.setSlot slot text }
  | rotated (withView : Bool) :
      Step vars r (.rotated withView)
        { r with shader := { r.shader with rotateWithView := withView } }
  | textured {shader : Shader}
      (declared : r.shader.addUniform textureUniform "sampler2D" = .ok shader) :
      Step vars r .textured { r with shader }

/-- Events one after the other. -/
inductive Trace (vars : Bindings) : Registry → List Event → Registry → Prop where
  | nil (r : Registry) : Trace vars r [] r
  | cons {r r₁ r' : Registry} {event : Event} {events : List Event}
      (first : event.Step vars r r₁) (rest : Trace vars r₁ events r') :
      Trace vars r (event :: events) r'

variable {vars : Bindings} {r r' r₁ : Registry} {event : Event} {events : List Event}

theorem Event.Step.trace (h : event.Step vars r r') : Trace vars r [event] r' := .cons h (.nil r')

theorem Trace.append {events' : List Event} (h : Trace vars r events r₁)
    (h' : Trace vars r₁ events' r') : Trace vars r (events ++ events') r' := by
  induction h with
  | nil => exact h'
  | cons first _ ih => exact .cons first (ih h')

/-- A trace can be cut at any of its events. -/
theorem Trace.split {before after : List Event}
    (h : Trace vars r (before ++ event :: after) r') :
    ∃ r₁ r₂, Trace vars r before r₁ ∧ event.Step vars r₁ r₂ ∧ Trace vars r₂ after r' := by
  induction before generalizing r with
  | nil =>
    cases h with
    | cons first rest => exact ⟨r, _, .nil r, first, rest⟩
  | cons other before ih =>
    cases h with
    | cons first rest =>
      obtain ⟨r₁, r₂, hbefore, hevent, hafter⟩ := ih rest
      exact ⟨r₁, r₂, .cons first hbefore, hevent, hafter⟩

theorem Event.Step.named (h : event.Step vars r r') (hr : r.Named) : r'.Named := by
  cases h with
  | emitted built ran => exact (emit_steps (Channel.wellTyped built) hr ran).named hr
  | filled | rotated | textured => exact ⟨hr.ident_eq, hr.varying_eq, hr.uniform_eq⟩

theorem Trace.named (h : Trace vars r events r') (hr : r.Named) : r'.Named := by
  induction h with
  | nil => exact hr
  | cons first _ ih => exact ih (first.named hr)

/-- The texts that an event registers. -/
def Event.literals (vars : Bindings) : Event → List String
  | .emitted ch => (ch.expr vars).literals
  | _ => []

theorem Event.Step.categories (h : event.Step vars r r') (hr : r.Named) :
    r'.categories = r.categories.registerEach (event.literals vars) := by
  cases h with
  | @emitted ch e t _ built ran =>
    rw [Event.literals, Channel.expr_eq built]
    exact emit_categories (Channel.wellTyped built) hr ran
  | filled | rotated | textured => rfl

theorem Trace.categories (h : Trace vars r events r') (hr : r.Named) :
    r'.categories = r.categories.registerEach (events.flatMap (Event.literals vars)) := by
  induction h with
  | nil => rfl
  | cons first _ ih =>
    rw [ih (first.named hr), first.categories hr, List.flatMap_cons, Categories.registerEach_append]

theorem Trace.grows (h : Trace vars r events r') (hr : r.Named) :
    r.categories.Grows r'.categories := by
  rw [h.categories hr]
  exact Categories.grows_registerEach _ _

theorem Trace.outcome_eq (h : Trace vars r events r') {ch : Channel}
    (hmem : .emitted ch ∈ events) : ch.outcome vars = .ok (ch.expr vars) := by
  induction h with
  | nil => cases hmem
  | cons first _ ih =>
    rcases List.mem_cons.mp hmem with rfl | hmem
    · cases first with
      | emitted built ran => rw [Channel.expr_eq built, built]
    · exact ih hmem

/-- The slots after an event. -/
def Event.fill (slots : Slot → String) : Event → Slot → String
  | .filled slot text => fun other => if other = slot then text else slots other
  | _ => slots

theorem Trace.slots (h : Trace vars r events r') (hr : r.Named) :
    r'.shader.slots = events.foldl Event.fill r.shader.slots := by
  induction h with
  | nil => rfl
  | cons first _ ih =>
    rw [ih (first.named hr), List.foldl_cons]
    congr 1
    cases first with
    | emitted built ran => exact (emit_steps (Channel.wellTyped built) hr ran).keeps_slots
    | filled | rotated => rfl
    | textured declared =>
      obtain ⟨_, _, rfl⟩ := Shader.addUniform_cases declared
      rfl

section Run

variable {ch : Channel} {build : Builder → Option Expr × Builder} {c : Compilation} {e : Expr}

theorem run_buildAndEmit (path : Path) (build : Builder → Option Expr × Builder) (stage : Stage)
    (c : Compilation) :
    (buildAndEmit path build stage).run c =
      match build c.builder with
      | (some e, builder) => (emitChannel path e stage).run { c with builder }
      | (none, builder) => (none, { c with builder }) := by
  rw [buildAndEmit, StateT.run_bind, StateT.run_get, pure_bind]
  rcases build c.builder with ⟨e, builder⟩
  cases e with
  | some e => rfl
  | none => rfl

/-- A channel that cannot be built adds its issues. -/
theorem run_buildAndEmit_error (hbuild : ∀ b, build b = b.collect (ch.outcome b.vars))
    {is : List Issue} (h : ch.outcome c.builder.vars = .error is) :
    (buildAndEmit ch.path build ch.stage).run c =
      (none, { c with builder := { c.builder with issues := c.builder.issues ++ is } }) := by
  rw [run_buildAndEmit, hbuild, h]
  rfl

theorem run_buildAndEmit_ok (hbuild : ∀ b, build b = b.collect (ch.outcome b.vars))
    (h : ch.outcome c.builder.vars = .ok e) :
    (buildAndEmit ch.path build ch.stage).run c = (emitChannel ch.path e ch.stage).run c := by
  rw [run_buildAndEmit, hbuild, h]
  rfl

/-- An expression that is refused adds one issue. -/
theorem run_emitChannel (path : Path) (e : Expr) (stage : Stage) (c : Compilation) :
    (emitChannel path e stage).run c =
      match (emit stage e).run.run c.registry with
      | (.ok t, registry) => (some t.text, { c with
          registry
          log := c.log ++ [⟨.debug, "channel compiled", [("path", path.shown),
            ("stage", stage.name), ("type", e.type.name), ("glsl", t.text)]⟩] })
      | (.error i, registry) => (none, { c with
          registry
          builder := { c.builder with issues := c.builder.issues ++ [i] } }) := by
  rw [emitChannel, StateT.run_bind, StateT.run_get, pure_bind]
  rcases (emit stage e).run.run c.registry with ⟨outcome, registry⟩
  cases outcome with
  | ok t => rfl
  | error i => rfl

end Run

section Does

variable {α β : Type}

/-- Where a computation reports no issue, none was there before, and the registry went through
events that fit the value. The code that they tell is that of any later table of texts. -/
def DoesFrom (c : Compilation) (m : CompileM α)
    (P : (Channel → String) → α → List Event → Prop) : Prop :=
  (m.run c).2.builder.issues = [] →
    c.builder.issues = [] ∧ (m.run c).2.builder.vars = c.builder.vars ∧
      ∃ events, Trace c.builder.vars c.registry events (m.run c).2.registry ∧
        (c.registry.Named → ∀ final, (m.run c).2.registry.categories.Grows final →
          P (Channel.code c.builder.vars final) (m.run c).1 events)

def Does (m : CompileM α) (P : (Channel → String) → α → List Event → Prop) : Prop :=
  ∀ c, DoesFrom c m P

theorem DoesFrom.get {c : Compilation} {f : Compilation → CompileM α}
    {P : (Channel → String) → α → List Event → Prop} (h : DoesFrom c (f c) P) :
    DoesFrom c (MonadState.get >>= f) P := h

namespace Does

variable {P Q : (Channel → String) → α → List Event → Prop}

theorem pure (a : α) (h : ∀ code, P code a []) : Does (Pure.pure a) P :=
  fun _ clean => ⟨clean, rfl, [], .nil _, fun _ _ _ => h _⟩

theorem bind {m : CompileM α} {f : α → CompileM β} {R : (Channel → String) → β → List Event → Prop}
    (h : Does m P) (h' : ∀ a, Does (f a) fun code b events' => ∀ events, P code a events →
      R code b (events ++ events')) : Does (m >>= f) R := by
  intro c clean
  rcases hrun : m.run c with ⟨a, c₁⟩
  have hbind : (m >>= f).run c = (f a).run c₁ := by
    rw [StateT.run_bind, hrun]
    rfl
  have hfirst := h c
  unfold DoesFrom at hfirst
  rw [hbind] at clean ⊢
  rw [hrun] at hfirst
  -- The second part comes first: without an issue at its end there is none at its start.
  obtain ⟨clean₁, hvars₁, events', htrace', hlast⟩ := h' a c₁ clean
  obtain ⟨clean₀, hvars, events, htrace, hpost⟩ := hfirst clean₁
  rw [hvars] at htrace' hvars₁ hlast
  refine ⟨clean₀, hvars₁, events ++ events', htrace.append htrace', fun named final grows => ?_⟩
  have named₁ := htrace.named named
  have hgrows := htrace'.grows named₁
  exact hlast named₁ final grows events (hpost named final (hgrows.trans grows))

theorem mono {m : CompileM α} (h : Does m P) (hPQ : ∀ code a events, P code a events →
    Q code a events) : Does m Q := by
  intro c clean
  obtain ⟨clean₀, hvars, events, htrace, hpost⟩ := h c clean
  exact ⟨clean₀, hvars, events, htrace, fun named final grows =>
    hPQ _ _ _ (hpost named final grows)⟩

/-- An issue is never the end of a compilation without issues. -/
theorem issue (i : Issue) {P : (Channel → String) → Unit → List Event → Prop} :
    Does (Compilation.issue i) P := by
  intro c clean
  have hne : c.builder.issues ++ [i] = [] := clean
  exact absurd hne (by simp)

theorem setSlot (slot : Slot) (text : String) :
    Does (Compilation.setSlot slot text) fun _ _ events => events = [.filled slot text] :=
  fun _ clean => ⟨clean, rfl, _, (Event.Step.filled slot text).trace, fun _ _ _ => rfl⟩

theorem rotate (withView : Bool) :
    Does (Compilation.changeShader fun s => { s with rotateWithView := withView })
      fun _ _ events => events = [.rotated withView] :=
  fun _ clean => ⟨clean, rfl, _, (Event.Step.rotated withView).trace, fun _ _ _ => rfl⟩

theorem emitChannel_cases (path : Path) (e : Expr) (stage : Stage) (c : Compilation) :
    (∃ t r' log, (emit stage e).run.run c.registry = (.ok t, r') ∧
      (Compilation.emitChannel path e stage).run c =
        (some t.text, { c with registry := r', log })) ∨
    ((Compilation.emitChannel path e stage).run c).2.builder.issues ≠ [] := by
  rw [run_emitChannel]
  rcases (emit stage e).run.run c.registry with ⟨outcome, r'⟩
  cases outcome with
  | ok t => exact Or.inl ⟨t, r', _, rfl, rfl⟩
  | error i =>
    right
    change c.builder.issues ++ [i] ≠ []
    simp

/-- A channel that is compiled without an issue is built and emitted. -/
theorem buildAndEmit (ch : Channel) {build : Builder → Option Expr × Builder}
    (hbuild : ∀ b, build b = b.collect (ch.outcome b.vars)) :
    Does (Compilation.buildAndEmit ch.path build ch.stage)
      fun code a events => a = some (code ch) ∧ events = [.emitted ch] := by
  intro c clean
  cases houtcome : ch.outcome c.builder.vars with
  | error is =>
    rw [run_buildAndEmit_error hbuild houtcome] at clean
    have hne : is ≠ [] := by
      rintro rfl
      exact ch.reports_outcome _ houtcome
    have hissues : c.builder.issues ++ is = [] := clean
    exact absurd (List.append_eq_nil_iff.mp hissues).2 hne
  | ok e =>
    rw [run_buildAndEmit_ok hbuild houtcome] at clean ⊢
    rcases emitChannel_cases ch.path e ch.stage c with ⟨t, r', log, hran, hresult⟩ | hne
    · rw [hresult] at clean ⊢
      refine ⟨clean, rfl, _, (Event.Step.emitted houtcome hran).trace, fun named final grows => ?_⟩
      exact ⟨by rw [Channel.code_eq houtcome named hran grows], rfl⟩
    · exact absurd clean hne

theorem channel (path : Path) (raw : Value) (expected : TypeSet) (stage : Stage) :
    Does (Compilation.channel path raw expected stage) fun code a events =>
      a = some (code ⟨path, raw, .kinds expected, stage⟩) ∧
        events = [.emitted ⟨path, raw, .kinds expected, stage⟩] :=
  buildAndEmit ⟨path, raw, .kinds expected, stage⟩ fun _ => rfl

theorem typedChannel (path : Path) (raw : Value) (want : Ty) (stage : Stage) :
    Does (Compilation.typedChannel path raw want stage) fun code a events =>
      a = some (code ⟨path, raw, .type want, stage⟩) ∧
        events = [.emitted ⟨path, raw, .type want, stage⟩] :=
  buildAndEmit ⟨path, raw, .type want, stage⟩ fun _ => rfl

end Does

end Does

end ShaderStyle.Compilation
