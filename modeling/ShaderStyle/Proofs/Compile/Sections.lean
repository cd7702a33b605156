import ShaderStyle.Proofs.Compile.Tables
import ShaderStyle.Proofs.Emission.Passing
import ShaderStyle.Proofs.Emission.ReadBack
import ShaderStyle.Proofs.Emission.Sequence

/-! The issues of a compilation. Every channel reports in its place what is wrong with it, whatever
the others report, and the copies of channels for the fragment shader report nothing. -/
namespace ShaderStyle

/-- An attribute without its varying. -/
def Attribute.unpassed (a : Attribute) : Attribute := { a with varying := none }

theorem Attribute.unpassed_passedOn (added : List (String × Ty)) (a : Attribute) :
    (a.passedOn added).unpassed = a.unpassed := by
  unfold passedOn
  split
  · rfl
  · rfl

/-- A registry that was changed between two channels: whatever was done to its shader and its
varyings, it holds the same properties, variables and texts. -/
structure Registry.Retouched (r r' : Registry) : Prop where
  attributes : r'.attributes.values.map Attribute.unpassed =
    r.attributes.values.map Attribute.unpassed
  vars : r'.vars = r.vars
  categories : r'.categories = r.categories

namespace Registry.Retouched

variable {r r₁ r' : Registry}

theorem shader (r : Registry) (shader : Shader) : Retouched r { r with shader } := ⟨rfl, rfl, rfl⟩

theorem refl (r : Registry) : Retouched r r := shader r r.shader

theorem trans (h : Retouched r r₁) (h' : Retouched r₁ r') : Retouched r r' :=
  ⟨h'.attributes.trans h.attributes, h'.vars.trans h.vars, h'.categories.trans h.categories⟩

theorem of_passesOn {added : List (String × Ty)} (h : PassesOn added r r') : Retouched r r' where
  attributes := by
    simp only [OrderedMap.values, h.attributes, List.map_map, Function.comp_def,
      Attribute.unpassed_passedOn]
  vars := h.vars
  categories := h.categories

end Registry.Retouched

namespace Compilation

/-- Builds the expression of a channel alone. -/
def Channel.build (vars : Bindings) (ch : Channel) : Option Expr × Builder :=
  match ch.goal with
  | .kinds expected => Builder.build { vars } ch.path ch.raw expected
  | .type want => Builder.buildType { vars } ch.path ch.raw want

theorem Channel.build_eq (vars : Bindings) (ch : Channel) :
    ch.build vars = Builder.collect { vars } (ch.outcome vars) := by
  unfold build outcome
  cases ch.goal with
  | kinds expected => rfl
  | type want => rfl

theorem Channel.build_error {vars : Bindings} {ch : Channel} {issues : List Issue}
    (h : ch.outcome vars = .error issues) : ch.build vars = (none, { vars, issues }) := by
  rw [build_eq, h]
  rfl

theorem Channel.build_ok {vars : Bindings} {ch : Channel} {e : Expr} (h : ch.outcome vars = .ok e) :
    ch.build vars = (some e, { vars }) := by
  rw [build_eq, h]
  rfl

theorem Channel.built {vars : Bindings} {ch : Channel} {e : Expr} (h : ch.outcome vars = .ok e) :
    e.Built fun _ => True := by
  have hbuild := build_ok h
  unfold build at hbuild
  cases hgoal : ch.goal with
  | kinds expected =>
    rw [hgoal] at hbuild
    exact ⟨_, _, _, _, Or.inl ⟨expected, hbuild⟩⟩
  | type want =>
    rw [hgoal] at hbuild
    exact ⟨_, _, _, _, Or.inr ⟨want, fun _ _ => trivial, hbuild⟩⟩

/-- The emission of a channel. -/
def Channel.call (vars : Bindings) (ch : Channel) : Stage × Expr := (ch.stage, ch.expr vars)

/-- What a channel asks of the registry is among the requests. -/
def Channel.Asks (vars : Bindings) (qs : Requests) (ch : Channel) : Prop :=
  ∀ e, ch.outcome vars = .ok e → e.requests ch.stage ⊆ qs

/-- A part of a style that something can be wrong with. -/
inductive Section where
  | channel (ch : Channel)
  | symbolType (s : Symbol)

/-- What is wrong with a symbol that has none of the shapes. -/
def shapeIssue (s : Symbol) : Issue :=
  ⟨Path.key ⟨"symbol"⟩ "symbolType",
    if s.symbolType = "" then .missingSymbolType else .unknownSymbolType s.symbolType⟩

/-- The issues that a section reports, with the registry before and after it. Some sections have
failed before. -/
inductive Section.Reports (vars : Bindings) (failed : List Section) :
    Registry → Section → List Issue → Registry → Prop where
  /-- A channel that cannot be built alone reports what its building reports. -/
  | unbuilt {r : Registry} {ch : Channel} {b : Builder} (build : ch.build vars = (none, b)) :
      Reports vars failed r (.channel ch) b.issues r
  /-- A channel that can be built reports nothing where it is emitted, and one issue where the
  emission is refused. -/
  | emitted {r r' : Registry} {ch : Channel} {e : Expr} {b : Builder} {t : Glsl.Term}
      (build : ch.build vars = (some e, b)) (run : (emit ch.stage e).run.run r = (.ok t, r')) :
      Reports vars failed r (.channel ch) [] r'
  | refused {r r' : Registry} {ch : Channel} {e : Expr} {b : Builder} {i : Issue}
      (build : ch.build vars = (some e, b)) (run : (emit ch.stage e).run.run r = (.error i, r')) :
      Reports vars failed r (.channel ch) [i] r'
  | shaped {r : Registry} {s : Symbol} (known : (Shape.ofName? s.symbolType).isSome = true) :
      Reports vars failed r (.symbolType s) [] r
  | shapeless {r : Registry} {s : Symbol} (unknown : Shape.ofName? s.symbolType = none) :
      Reports vars failed r (.symbolType s) [shapeIssue s] r
  /-- The shape is not looked at where a channel has failed that it is drawn with. -/
  | unchecked {r : Registry} {s : Symbol} {ch : Channel} (before : .channel ch ∈ failed)
      (needed : ch ∈ [sizeChannel s .vertex, colorChannel s, opacityChannel s]) :
      Reports vars failed r (.symbolType s) [] r

/-- The sections that have failed, after one more section. -/
def Section.after (part : Section) (failed : List Section) : List Issue → List Section
  | [] => failed
  | _ :: _ => part :: failed

/-- Sections that report one after the other, each with a registry in one of the states. -/
inductive Reporting (vars : Bindings) (states : Registry → Prop) :
    List Section → Registry → List Section → List (List Issue) → Registry → Prop where
  | done {failed : List Section} {r r' : Registry} (between : r.Retouched r') :
      Reporting vars states failed r [] [] r'
  | step {failed : List Section} {r r₁ r₂ r' : Registry} {part : Section} {sections : List Section}
      {issues : List Issue} {reports : List (List Issue)} (between : r.Retouched r₁)
      (state : states r₁) (report : part.Reports vars failed r₁ issues r₂)
      (rest : Reporting vars states (part.after failed issues) r₂ sections reports r') :
      Reporting vars states failed r (part :: sections) (issues :: reports) r'

namespace Section

variable {part : Section} {failed failed' : List Section} {issues : List Issue}

theorem mem_after (h : issues ≠ []) : part ∈ part.after failed issues := by
  cases issues with
  | nil => exact absurd rfl h
  | cons i is => exact List.mem_cons_self

theorem subset_after (part : Section) (failed : List Section) (issues : List Issue) :
    failed ⊆ part.after failed issues := by
  cases issues with
  | nil => exact List.Subset.refl _
  | cons i is => exact List.subset_cons_self _ _

theorem after_subset (hsub : failed ⊆ failed') (issues : List Issue) :
    part.after failed issues ⊆ part.after failed' issues := by
  cases issues with
  | nil => exact hsub
  | cons i is => exact List.cons_subset_cons _ hsub

theorem Reports.mono {vars : Bindings} {r r' : Registry}
    (h : part.Reports vars failed r issues r') (hsub : failed ⊆ failed') :
    part.Reports vars failed' r issues r' := by
  cases h with
  | unbuilt build => exact .unbuilt build
  | emitted build run => exact .emitted build run
  | refused build run => exact .refused build run
  | shaped known => exact .shaped known
  | shapeless unknown => exact .shapeless unknown
  | unchecked before needed => exact .unchecked (hsub before) needed

end Section

namespace Reporting

variable {vars : Bindings} {states states' : Registry → Prop} {failed failed' : List Section}
  {r r₁ r' : Registry} {sections sections' : List Section} {reports reports' : List (List Issue)}

theorem mono (h : Reporting vars states failed r sections reports r') (hsub : failed ⊆ failed')
    (hstates : ∀ r, states r → states' r) :
    Reporting vars states' failed' r sections reports r' := by
  induction h generalizing failed' with
  | done between => exact .done between
  | step between state report _ ih =>
    exact .step between (hstates _ state) (report.mono hsub) (ih (Section.after_subset hsub _))

theorem retouch (between : r.Retouched r₁)
    (h : Reporting vars states failed r₁ sections reports r') :
    Reporting vars states failed r sections reports r' := by
  cases h with
  | done later => exact .done (between.trans later)
  | step later state report rest => exact .step (between.trans later) state report rest

theorem append (h : Reporting vars states failed r sections reports r₁)
    (h' : Reporting vars states failed r₁ sections' reports' r') :
    Reporting vars states failed r (sections ++ sections') (reports ++ reports') r' := by
  induction h with
  | done between => exact retouch between h'
  | step between state report _ ih =>
    exact .step between state report (ih (h'.mono (Section.subset_after _ _ _) fun _ => id))

end Reporting

/-- The sections of a symbol, in the order in which they report. -/
def symbolSections (s : Symbol) : List Section :=
  [.channel (sizeChannel s .vertex), .channel (offsetChannel s), .channel (textureCoordChannel s),
    .channel (rotationChannel s), .channel (colorChannel s), .channel (opacityChannel s),
    .symbolType s]

def strokeSections (color width : Value) : List Section :=
  (if !color.isNull then [.channel (strokeColorChannel color)] else []) ++
    if !width.isNull then [.channel (strokeWidthChannel width .vertex)] else []

end Compilation

open Compilation

/-- The sections of a style, in the order in which they report. -/
def Style.sections (s : Style) : List Section :=
  (if !s.filter.isNull then [.channel (filterChannel s.filter)] else []) ++
  ((match s.symbol with
    | none => []
    | some sym => symbolSections sym) ++
  (strokeSections s.strokeColor s.strokeWidth ++
    if !s.fillColor.isNull then [.channel (fillColorChannel s.fillColor)] else []))

/-- What the channels of a style ask for. -/
def Style.requests (vars : Bindings) (s : Style) : Requests :=
  .ofCalls (s.channels.map (Channel.call vars))

theorem Style.asks {s : Style} {ch : Channel} (h : ch ∈ s.channels) (vars : Bindings) :
    ch.Asks vars (s.requests vars) := by
  intro e built q hq
  rw [← Channel.expr_eq built] at hq
  exact List.mem_flatMap.mpr ⟨_, List.mem_map_of_mem h, hq⟩

namespace Compilation

/-- The registry of a compilation of a style that asks for the requests. -/
structure Sound (qs : Requests) (r : Registry) : Prop where
  reachable : r.Reachable
  serves : r.Serves [textureUniform] qs
  sampled : ∃ declared : Bool, samplers r.shader.uniforms =
    if declared then [(textureUniform, "sampler2D")] else []

namespace Sound

variable {qs : Requests} {r : Registry}

theorem fresh (qs : Requests) : Sound qs {} where
  reachable := .fresh {}
  serves := .fresh (fun name => by simpa using uniformName_ne_textureUniform name) qs
  sampled := ⟨false, rfl⟩

theorem tabled (h : Sound qs r) : r.Tabled [textureUniform] := by
  obtain ⟨taken, -, htables, -⟩ := h.serves
  exact ⟨_, _, _, htables⟩

theorem emit (h : Sound qs r) {e : Expr} (built : e.Built fun _ => True) {stage : Stage}
    (asked : e.requests stage ⊆ qs) {outcome : Except Issue Glsl.Term} {r' : Registry}
    (hrun : (emit stage e).run.run r = (outcome, r')) : Sound qs r' where
  reachable := by
    have hreachable := h.reachable.emission stage built
    rwa [hrun] at hreachable
  serves := h.serves.emit built.wellTyped asked hrun
  sampled := by
    rw [(emit_steps built.wellTyped h.serves.named hrun).samplers_eq]
    exact h.sampled

theorem paint (h : Sound qs r) (slots : Slot → String) (rotateWithView : Bool) :
    Sound qs { r with shader := { r.shader with slots, rotateWithView } } where
  reachable := h.reachable.shader _
  serves := by
    obtain ⟨taken, htaken, htables, hcategories⟩ := h.serves
    exact ⟨taken, htaken, { htables with }, hcategories⟩
  sampled := h.sampled

/-- The sampler of images can always be declared. -/
theorem texture (h : Sound qs r) :
    ∃ shader, r.shader.addUniform textureUniform "sampler2D" = .ok shader ∧
      Sound qs { r with shader } ∧ ∀ stage, shader.functions stage = r.shader.functions stage := by
  obtain ⟨declared, hsampled⟩ := h.sampled
  have hdeclare : ∃ uniforms,
      Shader.declare "uniform" r.shader.uniforms textureUniform "sampler2D" = .ok uniforms := by
    unfold Shader.declare
    cases hget : r.shader.uniforms.get? textureUniform with
    | none => exact ⟨_, rfl⟩
    | some previous =>
      have hmem : (textureUniform, previous) ∈ samplers r.shader.uniforms :=
        List.mem_filter.mpr ⟨OrderedMap.mem_entries_of_get? hget, decide_eq_true rfl⟩
      rw [hsampled] at hmem
      cases declared with
      | false => cases hmem
      | true =>
        have hsame : previous = "sampler2D" := congrArg Prod.snd (List.mem_singleton.mp hmem)
        exact ⟨r.shader.uniforms, if_pos hsame⟩
  obtain ⟨uniforms, hdeclare⟩ := hdeclare
  have hadd : r.shader.addUniform textureUniform "sampler2D" =
      .ok { r.shader with uniforms } := by
    rw [Shader.addUniform, hdeclare]
    rfl
  refine ⟨_, hadd, ⟨h.reachable.shader _, ?_, true, ?_⟩, fun stage => by cases stage <;> rfl⟩
  · obtain ⟨taken, htaken, htables, hcategories⟩ := h.serves
    exact ⟨taken, htaken, htables.addUniform (List.mem_singleton.mpr rfl) hadd, hcategories⟩
  · exact samplers_declare_texture hsampled hdeclare

end Sound

/-- A step of a compilation that adds the reports of its sections. What the vertex shader has is
kept. -/
structure Advance (vars : Bindings) (qs : Requests) (failed sections : List Section)
    (c c' : Compilation) : Prop where
  same_vars : c'.builder.vars = vars
  sound : Sound qs c'.registry
  keeps {ref : Reference} (h : ref.Provided .vertex c.registry) : ref.Provided .vertex c'.registry
  reports : ∃ reports, Reporting vars (Sound qs) failed c.registry sections reports c'.registry ∧
    c'.builder.issues = c.builder.issues ++ reports.flatten

/-- What a computation can rely on: references that the vertex shader has, and sections that have
failed. -/
structure Basis where
  ready : List Reference
  failed : List Section

structure Basis.Grows (k k' : Basis) : Prop where
  ready : k.ready ⊆ k'.ready
  failed : k.failed ⊆ k'.failed

/-- A computation that adds the reports of its sections. -/
def Advances {α : Type} (vars : Bindings) (qs : Requests) (k : Basis) (sections : List Section)
    (m : CompileM α) : Prop :=
  ∀ c : Compilation, c.builder.vars = vars → Sound qs c.registry →
    (∀ ref ∈ k.ready, ref.Provided .vertex c.registry) →
      Advance vars qs k.failed sections c (m.run c).2

namespace Advance

variable {vars : Bindings} {qs : Requests} {failed failed' sections sections' : List Section}
  {c c₁ c' : Compilation}

theorem silent (hvars : c'.builder.vars = vars) (hsound : Sound qs c'.registry)
    (hkeeps : ∀ {ref : Reference}, ref.Provided .vertex c.registry →
      ref.Provided .vertex c'.registry)
    (between : c.registry.Retouched c'.registry) (hissues : c'.builder.issues = c.builder.issues) :
    Advance vars qs failed [] c c' :=
  ⟨hvars, hsound, hkeeps, [], .done between, hissues.trans (List.append_nil _).symm⟩

theorem mono (h : Advance vars qs failed sections c c') (hsub : failed ⊆ failed') :
    Advance vars qs failed' sections c c' := by
  obtain ⟨reports, hreports, hissues⟩ := h.reports
  exact { h with reports := ⟨reports, hreports.mono hsub fun _ => id, hissues⟩ }

theorem trans (h : Advance vars qs failed sections c c₁)
    (h' : Advance vars qs failed sections' c₁ c') :
    Advance vars qs failed (sections ++ sections') c c' := by
  obtain ⟨reports, hreports, hissues⟩ := h.reports
  obtain ⟨reports', hreports', hissues'⟩ := h'.reports
  refine ⟨h'.same_vars, h'.sound, fun hp => h'.keeps (h.keeps hp), reports ++ reports', ?_, ?_⟩
  · exact hreports.append hreports'
  · rw [hissues', hissues, List.flatten_append, List.append_assoc]

section Then

variable {α β : Type} {m : CompileM α} {f : α → CompileM β} {a : α} {ready : List Reference}

/-- A step and then the rest, which can use what is ready by then. -/
theorem andThen (hrun : m.run c = (a, c₁)) (hstep : Advance vars qs failed sections c c₁)
    (hready : ∀ ref ∈ ready, ref.Provided .vertex c₁.registry)
    (rest : Advances vars qs ⟨ready, failed⟩ sections' (f a)) :
    Advance vars qs failed (sections ++ sections') c ((m >>= f).run c).2 := by
  rw [StateT.run_bind, hrun]
  exact hstep.trans (rest c₁ hstep.same_vars hstep.sound hready)

/-- A section and then the rest, which can use that it has failed. -/
theorem reportThen {part : Section} {issues : List Issue} (hrun : m.run c = (a, c₁))
    (report : part.Reports vars failed c.registry issues c₁.registry)
    (hbefore : Sound qs c.registry) (hvars : c₁.builder.vars = vars)
    (hsound : Sound qs c₁.registry)
    (hkeeps : ∀ {ref : Reference}, ref.Provided .vertex c.registry →
      ref.Provided .vertex c₁.registry)
    (hissues : c₁.builder.issues = c.builder.issues ++ issues)
    (hready : ∀ ref ∈ ready, ref.Provided .vertex c₁.registry)
    (rest : Advances vars qs ⟨ready, part.after failed issues⟩ sections (f a)) :
    Advance vars qs failed (part :: sections) c ((m >>= f).run c).2 := by
  have hbind : (m >>= f).run c = (f a).run c₁ := by
    rw [StateT.run_bind, hrun]
    rfl
  rw [hbind]
  have hrest := rest c₁ hvars hsound hready
  obtain ⟨reports, hreports, hlast⟩ := hrest.reports
  refine ⟨hrest.same_vars, hrest.sound, fun hp => hrest.keeps (hkeeps hp), issues :: reports, ?_, ?_⟩
  · exact .step (.refl _) hbefore report hreports
  · rw [hlast, hissues, List.flatten_cons, List.append_assoc]

end Then

end Advance

namespace Advances

variable {α β : Type} {vars : Bindings} {qs : Requests} {k k' : Basis}
  {sections sections' : List Section}

theorem pure (a : α) : Advances vars qs k [] (Pure.pure a) :=
  fun _ hvars hsound _ => .silent hvars hsound id (.refl _) rfl

theorem bind {m : CompileM α} {f : α → CompileM β} (h : Advances vars qs k sections m)
    (h' : ∀ a, Advances vars qs k sections' (f a)) :
    Advances vars qs k (sections ++ sections') (m >>= f) := by
  intro c hvars hsound hready
  have hstep := h c hvars hsound hready
  exact hstep.andThen rfl (fun ref href => hstep.keeps (hready ref href)) (h' _)

theorem weaken {m : CompileM α} (h : Advances vars qs k sections m) (hk : k.Grows k') :
    Advances vars qs k' sections m := fun c hvars hsound hready =>
  (h c hvars hsound fun ref href => hready ref (hk.ready href)).mono hk.failed

theorem paint (slots : Shader → Slot → String) (rotateWithView : Shader → Bool) :
    Advances vars qs k [] (changeShader fun s =>
      { s with slots := slots s, rotateWithView := rotateWithView s }) := by
  intro c hvars hsound _
  refine .silent hvars (hsound.paint _ _) (fun {ref} hp => ?_) (.shader _ _) rfl
  cases ref with
  | property | styleVariable | text | number => exact hp

theorem setSlot (slot : Slot) (text : String) :
    Advances vars qs k [] (Compilation.setSlot slot text) :=
  paint (fun s other => if other = slot then text else s.slots other) Shader.rotateWithView

theorem rotate (withView : Bool) :
    Advances vars qs k [] (changeShader fun s => { s with rotateWithView := withView }) :=
  paint Shader.slots fun _ => withView

/-- What the value of a channel tells: with code the expression is built, and in the vertex stage all
its references are ready; without code the channel has failed. -/
structure Tells (vars : Bindings) (ch : Channel) (k : Basis) (a : Option String) : Prop where
  built {code : String} (h : a = some code) :
    ∃ e, ch.outcome vars = .ok e ∧ (ch.stage = .vertex → e.references ⊆ k.ready)
  failed (h : a = none) : .channel ch ∈ k.failed

section Channel

variable (ch : Channel) {build : Builder → Option Expr × Builder}
  {f : Option String → CompileM β}

/-- A channel, before the rest. -/
theorem channelReady (hbuild : ∀ b, build b = b.collect (ch.outcome b.vars))
    (asks : ch.Asks vars qs)
    (rest : ∀ a k', k.Grows k' → Tells vars ch k' a → Advances vars qs k' sections (f a)) :
    Advances vars qs k (.channel ch :: sections)
      (Compilation.buildAndEmit ch.path build ch.stage >>= f) := by
  intro c hvars hsound hready
  have hafter (issues : List Issue) := (Section.channel ch).subset_after k.failed issues
  cases houtcome : ch.outcome vars with
  | error is =>
    have hne : is ≠ [] := by
      rintro rfl
      exact ch.reports_outcome _ houtcome
    exact .reportThen (run_buildAndEmit_error hbuild (hvars ▸ houtcome))
      (.unbuilt (Channel.build_error houtcome)) hsound hvars hsound id rfl hready
      (rest none _ ⟨List.Subset.refl _, hafter is⟩ ⟨nofun, fun _ => Section.mem_after hne⟩)
  | ok e =>
    have hbuilt := Channel.built houtcome
    have hrun := run_buildAndEmit_ok hbuild (hvars ▸ houtcome)
    rw [run_emitChannel] at hrun
    rcases hemit : (emit ch.stage e).run.run c.registry with ⟨outcome, r'⟩
    have hsound' := hsound.emit hbuilt (asks e houtcome) hemit
    have hsteps := emit_steps hbuilt.wellTyped hsound.serves.named hemit
    have hkept (ref : Reference) (href : ref ∈ k.ready) : ref.Provided .vertex r' :=
      hsteps.provided (hready ref href)
    rw [hemit] at hrun
    cases outcome with
    | error i =>
      exact .reportThen hrun (.refused (Channel.build_ok houtcome) hemit) hsound hvars hsound'
        hsteps.provided rfl hkept
        (rest none _ ⟨List.Subset.refl _, hafter [i]⟩ ⟨nofun, fun _ => List.mem_cons_self⟩)
    | ok t =>
      obtain ⟨-, hprovided⟩ := emit_ok hbuilt.wellTyped hsound.serves.named hemit
      -- In the vertex stage the references of the channel are ready from here on.
      obtain ⟨ready, hsub, htells, hready'⟩ : ∃ ready, k.ready ⊆ ready ∧
          (ch.stage = .vertex → e.references ⊆ ready) ∧
            ∀ ref ∈ ready, ref.Provided .vertex r' := by
        by_cases hstage : ch.stage = .vertex
        · rw [hstage] at hprovided
          exact ⟨k.ready ++ e.references, List.subset_append_left _ _,
            fun _ => List.subset_append_right _ _,
            fun ref href => (List.mem_append.mp href).elim (hkept ref) (hprovided ref)⟩
        · exact ⟨k.ready, List.Subset.refl _, fun h => absurd h hstage, hkept⟩
      exact .reportThen hrun (.emitted (Channel.build_ok houtcome) hemit) hsound hvars hsound'
        hsteps.provided (List.append_nil _).symm hready'
        (rest _ _ ⟨hsub, hafter []⟩ ⟨fun _ => ⟨e, houtcome, htells⟩, nofun⟩)

theorem channel (hbuild : ∀ b, build b = b.collect (ch.outcome b.vars)) (asks : ch.Asks vars qs)
    (rest : ∀ a, Advances vars qs k sections (f a)) :
    Advances vars qs k (.channel ch :: sections)
      (Compilation.buildAndEmit ch.path build ch.stage >>= f) :=
  channelReady ch hbuild asks fun a _ hk _ => (rest a).weaken hk

/-- The copy of a channel for the fragment shader, once the vertex shader has the channel. -/
theorem copy (hbuild : ∀ b, build b = b.collect (ch.outcome b.vars)) (asks : ch.Asks vars qs)
    (hstage : ch.stage = .fragment) {e : Expr} (built : ch.outcome vars = .ok e)
    (covered : e.references ⊆ k.ready)
    (rest : ∀ code, Advances vars qs k sections (f (some code))) :
    Advances vars qs k sections
      (Compilation.buildAndEmit ch.path build ch.stage >>= f) := by
  intro c hvars hsound hready
  have typed := Channel.wellTyped built
  have hrun := run_buildAndEmit_ok hbuild (hvars ▸ built)
  obtain ⟨r', added, hemit, -, hpasses⟩ := Registry.PassesOn.emit hsound.tabled typed
    fun ref href => hready ref (covered href)
  rw [← hstage] at hemit
  have hsound' := hsound.emit (Channel.built built) (asks e built) hemit
  have hsteps := emit_steps typed hsound.serves.named hemit
  rw [run_emitChannel, hemit] at hrun
  exact .andThen hrun (.silent hvars hsound' hsteps.provided (.of_passesOn hpasses) rfl)
    (fun ref href => hsteps.provided (hready ref href)) (rest _)

end Channel

/-- The code of a channel fills a slot, if there is one. -/
theorem fill (slot : Slot) (wrap : String → String) (a : Option String) {m : CompileM β}
    (rest : Advances vars qs k sections m) :
    Advances vars qs k sections (do
      if let some t := a then Compilation.setSlot slot (wrap t)
      m) := by
  cases a with
  | none => exact rest
  | some t => exact (setSlot slot (wrap t)).bind fun _ => rest

theorem fillLast (slot : Slot) (wrap : String → String) (a : Option String) :
    Advances vars qs k [] (do
      if let some t := a then Compilation.setSlot slot (wrap t)) := by
  cases a with
  | none => exact pure ()
  | some t => exact setSlot slot (wrap t)

/-- A section after a computation that reports nothing. -/
theorem last {part : Section} {m : CompileM α} (h : Advances vars qs k [] m)
    (report : ∀ r, part.Reports vars k.failed r [] r) : Advances vars qs k [part] m := by
  intro c hvars hsound hready
  have hstep := h c hvars hsound hready
  obtain ⟨reports, hreports, hissues⟩ := hstep.reports
  cases hreports with
  | done between =>
    refine { hstep with reports := ⟨[[]], ?_, by simpa using hissues⟩ }
    exact .step between hstep.sound (report _) (.done (.refl _))

theorem shapeless {s : Symbol} (unknown : Shape.ofName? s.symbolType = none) :
    Advances vars qs k [.symbolType s] (Compilation.issue (shapeIssue s)) := by
  intro c hvars hsound _
  refine ⟨hvars, hsound, id, [[shapeIssue s]], ?_, by rw [List.flatten_singleton]; rfl⟩
  exact .step (.refl _) hsound (.shapeless unknown) (.done (.refl _))

theorem texture (path : Path) (text : String) :
    Advances vars qs k [] (do
      match (← get).registry.shader.addUniform textureUniform "sampler2D" with
      | .error conflict => Compilation.issue ⟨path, .redeclared conflict⟩
      | .ok shader =>
        changeShader fun _ => shader
        Compilation.setSlot .symbolColor text) := by
  intro c hvars hsound hready
  obtain ⟨shader, hadd, hsound', hfunctions⟩ := hsound.texture
  have hkeeps {ref : Reference} (hp : ref.Provided .vertex c.registry) :
      ref.Provided .vertex { c.registry with shader } := by
    cases ref with
    | property | styleVariable => simpa [Reference.Provided, hfunctions] using hp
    | text | number => exact hp
  change Advance vars qs k.failed [] c
    ((match c.registry.shader.addUniform textureUniform "sampler2D" with
      | .error conflict => Compilation.issue ⟨path, .redeclared conflict⟩
      | .ok shader => do
        changeShader fun _ => shader
        Compilation.setSlot .symbolColor text : CompileM Unit).run c).2
  rw [hadd]
  have hrun : (changeShader fun _ => shader).run c =
      ((), { c with registry := { c.registry with shader } }) := rfl
  exact .andThen hrun (.silent hvars hsound' hkeeps (.shader _ _) rfl)
    (fun ref href => hkeeps (hready ref href)) (setSlot .symbolColor text)

/-- The part of a symbol that the fragment shader shares with the vertex shader. -/
theorem symbolFragment (s : Symbol) (color opacity : String)
    (asks : (sizeChannel s .fragment).Asks vars qs) {e : Expr}
    (built : (sizeChannel s .fragment).outcome vars = .ok e) (covered : e.references ⊆ k.ready) :
    Advances vars qs k [.symbolType s]
      (Compilation.symbolFragment s (orDefault s.size (decimal 1)) color opacity) := by
  refine copy (sizeChannel s .fragment) (fun _ => rfl) asks rfl built covered fun size => ?_
  refine bind (setSlot .symbolSizeFragment (vec2Text size)) fun _ => ?_
  cases hshape : Shape.ofName? s.symbolType with
  | none => exact shapeless hshape
  | some shape =>
    refine last ?_ fun _ => .shaped (by rw [hshape]; rfl)
    cases s.texture? with
    | none => exact setSlot .symbolColor _
    | some src => exact texture _ _

theorem symbol (s : Symbol)
    (asks : ∀ ch ∈ [sizeChannel s .vertex, offsetChannel s, textureCoordChannel s,
      rotationChannel s, colorChannel s, opacityChannel s, sizeChannel s .fragment],
        ch.Asks vars qs) :
    Advances vars qs k (symbolSections s) (Compilation.symbol s) := by
  refine channelReady (sizeChannel s .vertex) (fun _ => rfl) (asks _ (by simp))
    fun size k₁ _ hsize => fill .symbolSize vec2Text size ?_
  refine channel (offsetChannel s) (fun _ => rfl) (asks _ (by simp)) fun code =>
    fill .symbolOffset (fun t => t) code ?_
  refine channel (textureCoordChannel s) (fun _ => rfl) (asks _ (by simp)) fun code =>
    fill .texCoord (fun t => t) code ?_
  refine channel (rotationChannel s) (fun _ => rfl) (asks _ (by simp)) fun code =>
    fill .symbolRotation (fun t => t) code ?_
  refine bind (rotate s.rotateWithView) fun _ => ?_
  refine channelReady (colorChannel s) (fun _ => rfl) (asks _ (by simp))
    fun color k₂ hk₂ hcolor => ?_
  refine channelReady (opacityChannel s) (fun _ => rfl) (asks _ (by simp))
    fun opacity k₃ hk₃ hopacity => ?_
  cases size with
  | none =>
    have hfailed := hk₃.failed (hk₂.failed (hsize.failed rfl))
    exact last (pure ()) fun _ => .unchecked hfailed (by simp)
  | some size =>
    cases color with
    | none =>
      have hfailed := hk₃.failed (hcolor.failed rfl)
      exact last (pure ()) fun _ => .unchecked hfailed (by simp)
    | some color =>
      cases opacity with
      | none => exact last (pure ()) fun _ => .unchecked (hopacity.failed rfl) (by simp)
      | some opacity =>
        obtain ⟨e, built, covered⟩ := hsize.built rfl
        exact symbolFragment s color opacity (asks _ (by simp)) built fun ref href =>
          hk₃.ready (hk₂.ready (covered rfl href))

theorem filter (raw : Value) (asks : (filterChannel raw).Asks vars qs) :
    Advances vars qs k [.channel (filterChannel raw)] (Compilation.filter raw) :=
  channel (filterChannel raw) (fun _ => rfl) asks (fillLast .discard fun t => "!" ++ t)

theorem fillColor (raw : Value) (asks : (fillColorChannel raw).Asks vars qs) :
    Advances vars qs k [.channel (fillColorChannel raw)] (Compilation.fill raw) :=
  channel (fillColorChannel raw) (fun _ => rfl) asks (fillLast .fillColor fun t => t)

theorem strokeWidth (raw : Value) (asks : ∀ stage, (strokeWidthChannel raw stage).Asks vars qs) :
    Advances vars qs k [.channel (strokeWidthChannel raw .vertex)]
      (Compilation.strokeWidth raw) := by
  refine channelReady (strokeWidthChannel raw .vertex) (fun _ => rfl) (asks .vertex)
    fun width k' _ hwidth => ?_
  cases width with
  | none => exact pure ()
  | some code =>
    obtain ⟨e, built, covered⟩ := hwidth.built rfl
    refine bind (setSlot .strokeWidth code) fun _ => ?_
    exact copy (strokeWidthChannel raw .fragment) (fun _ => rfl) (asks .fragment) rfl built
      (covered rfl) fun copied => setSlot .strokeWidthFragment copied

/-- A part that is left out where it is not given. -/
theorem optional {given : Bool} {m : CompileM Unit} {m' : CompileM β}
    (h : given = true → Advances vars qs k sections m) (h' : Advances vars qs k sections' m') :
    Advances vars qs k ((if given then sections else []) ++ sections') (do
      if given then m
      m') := by
  cases given with
  | true => exact (h rfl).bind fun _ => h'
  | false => exact h'

theorem optionalLast {given : Bool} {m : CompileM Unit}
    (hm : given = true → Advances vars qs k sections m) :
    Advances vars qs k (if given then sections else [])
      (if given then m else Pure.pure ()) := by
  cases given with
  | true => exact hm rfl
  | false => exact pure ()

theorem stroke (color width : Value)
    (hcolor : (!color.isNull) = true → (strokeColorChannel color).Asks vars qs)
    (hwidth : (!width.isNull) = true → ∀ stage, (strokeWidthChannel width stage).Asks vars qs) :
    Advances vars qs k (strokeSections color width) (Compilation.stroke color width) := by
  have hlast : Advances vars qs k
      (if !width.isNull then [.channel (strokeWidthChannel width .vertex)] else [])
      (if !width.isNull then Compilation.strokeWidth width else Pure.pure ()) :=
    optionalLast fun hnull => strokeWidth width (hwidth hnull)
  unfold Compilation.stroke strokeSections
  cases hnull : !color.isNull with
  | true =>
    exact channel (strokeColorChannel color) (fun _ => rfl) (hcolor hnull) fun code =>
      fill .strokeColor (fun t => t) code hlast
  | false => exact hlast

/-- Every section of a style reports, in order. -/
theorem channels (s : Style) (asks : ∀ ch ∈ s.channels, ch.Asks vars qs) :
    Advances vars qs k s.sections (Compilation.channels s) := by
  have hfill : Advances vars qs k
      (if !s.fillColor.isNull then [.channel (fillColorChannel s.fillColor)] else [])
      (if s.hasFill then Compilation.fill s.fillColor else Pure.pure ()) :=
    optionalLast fun hnull => fillColor s.fillColor (asks _ (by simp [Style.channels, hnull]))
  have hstroke : (if s.hasStroke then strokeSections s.strokeColor s.strokeWidth else []) =
      strokeSections s.strokeColor s.strokeWidth := by
    unfold Style.hasStroke strokeSections
    cases s.strokeColor.isNull <;> cases s.strokeWidth.isNull <;> rfl
  have hlast : Advances vars qs k
      (strokeSections s.strokeColor s.strokeWidth ++
        if !s.fillColor.isNull then [.channel (fillColorChannel s.fillColor)] else []) (do
      if s.hasStroke then Compilation.stroke s.strokeColor s.strokeWidth
      if s.hasFill then Compilation.fill s.fillColor) := by
    rw [← hstroke]
    refine optional (fun _ => stroke _ _ (fun hnull => ?_) fun hnull stage => ?_) hfill
    · exact asks _ (by simp [Style.channels, hnull])
    · exact asks _ (by cases stage <;> simp [Style.channels, hnull])
  refine optional (fun hnull => filter s.filter (asks _ (by simp [Style.channels, hnull]))) ?_
  cases hsymbol : s.symbol with
  | none => exact hlast
  | some sym =>
    refine bind (symbol sym fun ch hch => asks ch ?_) fun _ => hlast
    simp only [Style.channels, hsymbol, List.mem_append]
    exact Or.inr (Or.inl hch)

end Advances

/-- The issues of a compilation are what the sections of its style report. -/
theorem sections_report (s : Style) (store : Option Bindings) :
    ∃ reports last, Reporting (store.getD (s.vars.getD .empty))
        (Sound (s.requests (store.getD (s.vars.getD .empty)))) [] {} s.sections reports last ∧
      (compile s store).1.issues = reports.flatten := by
  rcases hrun : (Compilation.channels s).run (initial s store) with ⟨⟨⟩, c⟩
  have hchannels : Advances (store.getD (s.vars.getD .empty)) (s.requests _) ⟨[], []⟩ s.sections
      (Compilation.channels s) := .channels s fun ch hch => Style.asks hch _
  have hadvance := hchannels (initial s store) rfl (.fresh _) nofun
  rw [hrun] at hadvance
  obtain ⟨reports, hreports, hissues⟩ := hadvance.reports
  refine ⟨reports, c.registry, hreports, ?_⟩
  have hsame : (compile s store).1.issues = c.builder.issues := by
    rw [compile_fst hrun]
    cases c.builder.issues with
    | nil => rfl
    | cons i is => rfl
  rw [hsame, hissues]
  exact List.nil_append _

end Compilation

/-- No issue is lost and none is reported twice. The issues of a compilation are those of its
sections, one after the other: of a channel that cannot be built by itself, all that a builder of
its own reports; of any other channel only the one with which its emission is refused, if it is; and
one for the shape of a symbol, if it is looked at and not known. -/
theorem compile_issues (s : Style) (store : Option Bindings) :
    ∃ reports last, Reporting (store.getD (s.vars.getD .empty)) Registry.Reachable [] {} s.sections
        reports last ∧
      (compile s store).1.issues = reports.flatten := by
  obtain ⟨reports, last, hreports, hissues⟩ := sections_report s store
  exact ⟨reports, last, hreports.mono (List.Subset.refl _) fun _ sound => sound.reachable,
    hissues⟩

end ShaderStyle
