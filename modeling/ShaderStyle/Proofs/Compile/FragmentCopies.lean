import ShaderStyle.Proofs.Compile.Complete
import ShaderStyle.Proofs.Compile.Sections
import ShaderStyle.Proofs.Emission.Consistency
import ShaderStyle.Proofs.Emission.Uses

/-! The channels that both shaders have: the copies in the fragment shader agree with the code in
the vertex shader, and are never the reason for a failure. -/
namespace ShaderStyle

open Compilation

/-- The slots of the size of a symbol. -/
def Stage.sizeSlot : Stage → Slot
  | .vertex => .symbolSize
  | .fragment => .symbolSizeFragment

/-- The slots of the width of a stroke. -/
def Stage.widthSlot : Stage → Slot
  | .vertex => .strokeWidth
  | .fragment => .strokeWidthFragment

/-- A channel of both shaders: the slots hold the code of one expression, in which each stage reads
properties in its own way. -/
def Result.Shares (r : Result) (channel : Stage → Channel) (slot : Stage → Slot)
    (wrap : String → String) : Prop :=
  ∃ e, (∀ stage, (channel stage).outcome r.vars = .ok e) ∧
    ∀ stage, r.shader.slots (slot stage) =
      wrap (e.termWith (Reference.propertyTerm stage) r.categories).text

/-- The size of the symbol and the width of the stroke are the same in both shaders. -/
structure Result.CopiesAgree (s : Style) (r : Result) : Prop where
  size {sym : Symbol} (given : s.symbol = some sym) :
    r.Shares (sizeChannel sym) Stage.sizeSlot vec2Text
  width (given : s.strokeWidth.isNull = false) :
    r.Shares (strokeWidthChannel s.strokeWidth) Stage.widthSlot fun text => text

/-- The channels of a style without their copies for the fragment shader. -/
def Style.ownChannels (s : Style) : List Channel := s.sections.filterMap fun
  | .channel ch => some ch
  | .symbolType _ => none

/-- The copies of channels for the fragment shader. -/
def Style.copies (s : Style) : List Channel :=
  (match s.symbol with
    | none => []
    | some sym => [sizeChannel sym .fragment]) ++
  if !s.strokeWidth.isNull then [strokeWidthChannel s.strokeWidth .fragment] else []

/-- A style that can be compiled, as far as its channels tell without the copies: they can be built,
and they can be emitted one after the other into a fresh registry. -/
structure Style.Compilable (vars : Bindings) (s : Style) : Prop where
  built {ch : Channel} (hch : ch ∈ s.ownChannels) : ∃ e, ch.outcome vars = .ok e
  emitted : Succeeds (s.ownChannels.map (Channel.call vars))
  shaped {sym : Symbol} (given : s.symbol = some sym) :
    (Shape.ofName? sym.symbolType).isSome = true

namespace Style

variable {s : Style} {ch : Channel} {vars : Bindings}

theorem mem_ownChannels : ch ∈ s.ownChannels ↔ .channel ch ∈ s.sections := by
  rw [ownChannels, List.mem_filterMap]
  constructor
  · rintro ⟨part, hpart, hch⟩
    cases part with
    | channel own =>
      cases hch
      exact hpart
    | symbolType sym => cases hch
  · exact fun h => ⟨_, h, rfl⟩

theorem mem_channels : ch ∈ s.channels ↔ ch ∈ s.ownChannels ∨ ch ∈ s.copies := by
  rw [mem_ownChannels]
  unfold channels sections strokeSections symbolSections copies
  cases s.symbol with
  | none =>
    simp only [List.nil_append, List.append_assoc, List.mem_append, List.mem_ite_nil_right,
      List.mem_cons, List.not_mem_nil, or_false, Section.channel.injEq]
    grind
  | some sym =>
    simp only [List.cons_append, List.nil_append, List.append_assoc, List.mem_append,
      List.mem_ite_nil_right, List.mem_cons, List.not_mem_nil, or_false, Section.channel.injEq,
      reduceCtorEq, false_or]
    grind

/-- A copy has the expression of a channel of the style. -/
theorem exists_own (h : ch ∈ s.channels) (vars : Bindings) :
    ∃ own ∈ s.ownChannels, own.outcome vars = ch.outcome vars := by
  rcases mem_channels.mp h with hown | hcopy
  · exact ⟨ch, hown, rfl⟩
  · rcases List.mem_append.mp hcopy with hsize | hwidth
    · cases hsymbol : s.symbol with
      | none => simp [hsymbol] at hsize
      | some sym =>
        simp only [hsymbol, List.mem_singleton] at hsize
        subst hsize
        refine ⟨sizeChannel sym .vertex, ?_, rfl⟩
        rw [mem_ownChannels]
        simp [sections, hsymbol, symbolSections]
    · simp only [List.mem_ite_nil_right, List.mem_singleton] at hwidth
      obtain ⟨hgiven, rfl⟩ := hwidth
      refine ⟨strokeWidthChannel s.strokeWidth .vertex, ?_, rfl⟩
      rw [mem_ownChannels]
      simp [sections, strokeSections, hgiven]

theorem wellTyped_calls (built : ∀ ch ∈ s.ownChannels, ∃ e, ch.outcome vars = .ok e) :
    ∀ call ∈ s.ownChannels.map (Channel.call vars), call.2.WellTyped fun _ => True := by
  intro call hcall
  obtain ⟨ch, hch, rfl⟩ := List.mem_map.mp hcall
  obtain ⟨e, hbuilt⟩ := built ch hch
  have hexpr : (ch.call vars).2 = e := Channel.expr_eq hbuilt
  rw [hexpr]
  exact Channel.wellTyped hbuilt

/-- The copies ask for nothing that the other channels do not ask for. -/
theorem Compilable.admissible (h : s.Compilable vars) : (s.requests vars).Admissible := by
  have hown := (succeeds_iff_admissible (wellTyped_calls fun _ => h.built)).mp h.emitted
  refine admissible_of_exprs (fun e he => ?_) hown
  simp only [List.map_map, List.mem_map] at he ⊢
  obtain ⟨ch, hch, rfl⟩ := he
  obtain ⟨own, hown, hsame⟩ := exists_own hch vars
  refine ⟨own, hown, ?_⟩
  simp only [Function.comp_apply, Channel.call, Channel.expr, hsame]

theorem mem_sections_symbolType {sym : Symbol} (h : .symbolType sym ∈ s.sections) :
    s.symbol = some sym := by
  cases hsymbol : s.symbol with
  | none => simp [sections, strokeSections, hsymbol] at h
  | some other =>
    have hsame : sym = other := by
      simpa [sections, strokeSections, symbolSections, hsymbol] using h
    rw [hsame]

/-- No section of a style that can be compiled has anything to report. -/
theorem Compilable.silent (h : s.Compilable vars) {part : Section} (hpart : part ∈ s.sections)
    {failed : List Section} {r r' : Registry} (state : Sound (s.requests vars) r)
    {issues : List Issue} (report : part.Reports vars failed r issues r') : issues = [] := by
  cases report with
  | emitted | shaped | unchecked => rfl
  | unbuilt build =>
    obtain ⟨e, hbuilt⟩ := h.built (mem_ownChannels.mpr hpart)
    rw [Channel.build_ok hbuilt] at build
    cases build
  | refused build run =>
    obtain ⟨e, hbuilt⟩ := h.built (mem_ownChannels.mpr hpart)
    rw [Channel.build_ok hbuilt] at build
    cases build
    have hasked := asks (mem_channels.mpr (Or.inl (mem_ownChannels.mpr hpart))) vars _ hbuilt
    exact absurd h.admissible (state.serves.not_admissible (Channel.wellTyped hbuilt) hasked run)
  | shapeless unknown =>
    have hshape := h.shaped (mem_sections_symbolType hpart)
    rw [unknown] at hshape
    cases hshape

theorem Compilable.flatten_eq_nil (h : s.Compilable vars) {r r' : Registry}
    {failed parts : List Section} {reports : List (List Issue)}
    (hreports : Reporting vars (Sound (s.requests vars)) failed r parts reports r')
    (hparts : parts ⊆ s.sections) : reports.flatten = [] := by
  induction hreports with
  | done between => rfl
  | step between state report _ ih =>
    rw [List.cons_subset] at hparts
    rw [List.flatten_cons, h.silent hparts.1 state report, ih hparts.2]
    rfl

end Style

theorem isOk_compile_iff (s : Style) (store : Option Bindings) :
    (compile s store).1.isOk = true ↔ (compile s store).1.issues = [] := by
  rcases hrun : (Compilation.channels s).run (initial s store) with ⟨⟨⟩, c⟩
  rw [compile_fst hrun]
  cases c.builder.issues with
  | nil => exact ⟨fun _ => rfl, fun _ => rfl⟩
  | cons i is => exact ⟨nofun, nofun⟩

namespace Compilation

/-- What events ask for is what their channels ask for. -/
theorem flatMap_requests (vars : Bindings) (events : List Event) :
    events.flatMap (Event.requests vars) =
      Requests.ofCalls ((events.filterMap Event.channel?).map (Channel.call vars)) := by
  induction events with
  | nil => rfl
  | cons event events ih =>
    rw [List.flatMap_cons, ih]
    cases event with
    | emitted ch => rfl
    | filled | rotated | textured => rfl

/-- What was compiled can be emitted without the copies. -/
theorem Trace.compilable {s : Style} {vars : Bindings} {code : Channel → String}
    {registry : Registry} (h : Trace vars {} (styleEvents code s) registry)
    (shaped : ∀ sym, s.symbol = some sym → (Shape.ofName? sym.symbolType).isSome = true) :
    s.Compilable vars := by
  have hbuilt : ∀ ch ∈ s.ownChannels, ∃ e, ch.outcome vars = .ok e := fun ch hch =>
    ⟨_, h.outcome_eq (emitted_mem_styleEvents (Style.mem_channels.mpr (Or.inl hch)) code)⟩
  have hall := h.records_all.admissible
  rw [flatMap_requests, channels_styleEvents] at hall
  refine ⟨fun hch => hbuilt _ hch, ?_, fun given => shaped _ given⟩
  rw [succeeds_iff_admissible (Style.wellTyped_calls hbuilt)]
  refine admissible_of_exprs (List.map_subset _ (List.map_subset _ fun ch hch => ?_)) hall
  exact Style.mem_channels.mpr (Or.inl hch)

end Compilation

/-- The copies for the fragment shader never make a compilation fail. -/
theorem isOk_compile_iff_compilable (s : Style) (store : Option Bindings) :
    (compile s store).1.isOk = true ↔ s.Compilable (store.getD (s.vars.getD .empty)) := by
  constructor
  · intro hok
    rcases hrun : compile s store with ⟨outcome, log⟩
    rw [hrun] at hok
    cases outcome with
    | error issues => cases hok
    | ok r =>
      obtain ⟨c, hchannels, clean, -⟩ := channels_of_compile hrun
      obtain ⟨hvars, hshaped, htrace⟩ := trace_of_channels hchannels clean
      exact hvars ▸ htrace.compilable hshaped
  · intro h
    obtain ⟨reports, last, hreports, hissues⟩ := sections_report s store
    rw [isOk_compile_iff, hissues]
    exact h.flatten_eq_nil hreports (List.Subset.refl _)

namespace Result

variable {s : Style} {r : Result}

/-- A channel of both stages whose code fills a slot of each. -/
theorem Shares.of_slots {channel : Stage → Channel} {slot : Stage → Slot} {wrap : String → String}
    {e : Expr} (built : ∀ stage, (channel stage).outcome r.vars = .ok e)
    (staged : ∀ stage, (channel stage).stage = stage)
    (filled : ∀ stage, r.shader.slots (slot stage) =
      wrap ((channel stage).code r.vars r.categories)) :
    r.Shares channel slot wrap := by
  refine ⟨e, built, fun stage => ?_⟩
  rw [filled, Channel.code, Channel.expr_eq (built stage), staged]
  rfl

theorem copiesAgree {store : Option Bindings} {log : List LogEntry}
    (h : compile s store = (.ok r, log)) : r.CopiesAgree s := by
  obtain ⟨registry, htrace, -, hshader, -⟩ := compile_ok h
  have hslots : r.shader.slots = s.slotText (Channel.code r.vars r.categories) := by
    rw [hshader, htrace.slots (Registry.named_fresh {}), ← slots_styleEvents]
  have hbuilt {ch : Channel} (hch : ch ∈ s.channels) : ch.outcome r.vars = .ok (ch.expr r.vars) :=
    htrace.outcome_eq (emitted_mem_styleEvents hch _)
  refine ⟨fun {sym} given => ?_, fun given => ?_⟩
  · have hsize : sizeChannel sym .vertex ∈ s.channels := by simp [Style.channels, given]
    refine .of_slots (fun _ => hbuilt hsize) (fun _ => rfl) fun stage => ?_
    rw [hslots]
    cases stage <;> simp [Style.slotText, Stage.sizeSlot, given]
  · have hwidth : strokeWidthChannel s.strokeWidth .vertex ∈ s.channels := by
      simp [Style.channels, given]
    refine .of_slots (fun _ => hbuilt hwidth) (fun _ => rfl) fun stage => ?_
    rw [hslots]
    cases stage <;> simp [Style.slotText, Stage.widthSlot, given]

end Result

/-- The copies of expressions for the fragment shader agree with the code of the vertex shader. The
code has the reads of exactly the properties of the expression, and but for these it is the same.
Whatever a registry was used for, what it gave to the vertex shader can be copied at any time later;
and in a compiled style the size of the symbol and the width of the stroke are the same in both
shaders, which never makes a compilation fail. -/
theorem fragmentCopies_agree :
    (∀ {e : Expr}, (e.Built fun _ => True) →
      (∀ c, DependsOn (e.termWith · c) (· ∈ e.properties)) ∧
      ∀ {r r₁ r₂ : Registry} {t : Glsl.Term}, Registry.Uses {} r →
        (emit .vertex e).run.run r = (.ok t, r₁) → Registry.Uses r₁ r₂ → r₂.CopiesTo e t) ∧
    ∀ (s : Style) (store : Option Bindings),
      ((compile s store).1.isOk = true ↔ s.Compilable (store.getD (s.vars.getD .empty))) ∧
        ∀ r log, compile s store = (.ok r, log) → r.CopiesAgree s := by
  refine ⟨fun built => ⟨built.wellTyped.dependsOnReads, fun before first further => ?_⟩,
    fun s store => ⟨?_, fun r log h => ?_⟩⟩
  · have hfresh : Registry.Tabled [] {} := ⟨[], [], [], Registry.tables_fresh fun _ => by simp⟩
    exact Registry.Uses.copiesTo built (before.kept hfresh).tabled first further
  · exact isOk_compile_iff_compilable s store
  · exact Result.copiesAgree h

private def tintRead : Expr :=
  builtFrom ⟨"symbol.color"⟩ (.list [.text "get", .text "tint"]) (.singleton .color)

/-- Lines whose width and points whose size come from the feature. -/
private def measured : Style where
  symbol := some {
    symbolType := "circle"
    size := .list [.text "get", .text "radius"] }
  strokeWidth := .list [.text "get", .text "width"]

theorem fragmentCopies_agree_measured :
    (∃ t r₁, (emit .vertex tintRead).run.run {} = (.ok t, r₁) ∧ t.text = "unpackColor(a_tint)" ∧
      (tintRead.termWith (Reference.propertyTerm .fragment) r₁.categories).text = "v_tint" ∧
      Registry.CopiesTo { r₁ with categories := r₁.categories.freeze } tintRead t) ∧
    ∃ r log, compile measured none = (.ok r, log) ∧
      r.shader.slots .symbolSizeFragment = "vec2(v_radius)" ∧
      r.shader.slots .strokeWidthFragment = "v_width" ∧ r.CopiesAgree measured ∧
      measured.Compilable .empty := by
  constructor
  · have hbuilt : tintRead.Built fun _ => True := built_builtFrom (by decide +kernel)
    have hemit : ((emit .vertex tintRead).run.run {}).1.toOption.map Glsl.Term.text =
        some "unpackColor(a_tint)" := by decide +kernel
    rcases hrun : (emit .vertex tintRead).run.run {} with ⟨outcome, r₁⟩
    rw [hrun] at hemit
    cases outcome with
    | error i => cases hemit
    | ok t =>
      refine ⟨t, r₁, rfl, Option.some.inj hemit, ?_, ?_⟩
      · have hread : ∃ path, tintRead = .get path "tint" .color := ⟨_, rfl⟩
        obtain ⟨path, hread⟩ := hread
        rw [hread]
        rfl
      · exact (fragmentCopies_agree.1 hbuilt).2 .refl hrun (.single .freeze)
  · have hcompile : (match (compile measured none).1 with
        | .ok r => decide (r.shader.slots .symbolSizeFragment = "vec2(v_radius)" ∧
            r.shader.slots .strokeWidthFragment = "v_width")
        | .error _ => false) = true := by decide +kernel
    obtain ⟨hiff, hagree⟩ := fragmentCopies_agree.2 measured none
    rcases hrun : compile measured none with ⟨outcome, log⟩
    rw [hrun] at hcompile hiff
    cases outcome with
    | error is => cases hcompile
    | ok r =>
      obtain ⟨hsize, hwidth⟩ := of_decide_eq_true hcompile
      exact ⟨r, log, rfl, hsize, hwidth, hagree r log hrun, hiff.mp rfl⟩

end ShaderStyle
