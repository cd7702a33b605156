import ShaderStyle.Proofs.Compile.Events

/-! The result of a compilation: its slots and its tables, as functions of the style. -/
namespace ShaderStyle

open Compilation

/-- The channels of a style, in the order in which they are compiled. -/
def Style.channels (s : Style) : List Channel :=
  (if !s.filter.isNull then [filterChannel s.filter] else []) ++
  ((match s.symbol with
    | none => []
    | some sym => [sizeChannel sym .vertex, offsetChannel sym, textureCoordChannel sym,
        rotationChannel sym, colorChannel sym, opacityChannel sym, sizeChannel sym .fragment]) ++
  ((if !s.strokeColor.isNull then [strokeColorChannel s.strokeColor] else []) ++
  ((if !s.strokeWidth.isNull then
      [strokeWidthChannel s.strokeWidth .vertex, strokeWidthChannel s.strokeWidth .fragment]
    else []) ++
  (if !s.fillColor.isNull then [fillColorChannel s.fillColor] else []))))

/-- What the slots of the shaders hold, by the code of the channels. -/
def Style.slotText (code : Channel → String) (s : Style) (slot : Slot) : String :=
  let symbol (text : Symbol → String) := (s.symbol.map text).getD slot.initial
  let given (raw : Value) (text : String) := if !raw.isNull then text else slot.initial
  match slot with
  | .symbolSize => symbol fun sym => vec2Text (code (sizeChannel sym .vertex))
  | .symbolSizeFragment => symbol fun sym => vec2Text (code (sizeChannel sym .fragment))
  | .symbolRotation => symbol fun sym => code (rotationChannel sym)
  | .symbolOffset => symbol fun sym => code (offsetChannel sym)
  | .symbolColor => symbol fun sym => symbolColorCode code sym
  | .texCoord => symbol fun sym => code (textureCoordChannel sym)
  | .discard => given s.filter ("!" ++ code (filterChannel s.filter))
  | .strokeColor => given s.strokeColor (code (strokeColorChannel s.strokeColor))
  | .strokeWidth => given s.strokeWidth (code (strokeWidthChannel s.strokeWidth .vertex))
  | .strokeWidthFragment =>
    given s.strokeWidth (code (strokeWidthChannel s.strokeWidth .fragment))
  | .fillColor => given s.fillColor (code (fillColorChannel s.fillColor))

namespace Compilation

def Event.channel? : Event → Option Channel
  | .emitted ch => some ch
  | _ => none

theorem channels_symbolEvents (code : Channel → String) (s : Symbol) :
    (symbolEvents code s).filterMap Event.channel? =
      [sizeChannel s .vertex, offsetChannel s, textureCoordChannel s, rotationChannel s,
        colorChannel s, opacityChannel s, sizeChannel s .fragment] := by
  unfold symbolEvents
  cases s.texture? with
  | none => rfl
  | some src => rfl

theorem filterMap_given {given : Bool} {α β : Type} (f : α → Option β) (xs : List α) :
    (if given then xs else []).filterMap f = if given then xs.filterMap f else [] := by
  cases given with
  | true => rfl
  | false => rfl

theorem channels_styleEvents (code : Channel → String) (s : Style) :
    (styleEvents code s).filterMap Event.channel? = s.channels := by
  unfold styleEvents Style.channels strokeEvents
  rw [List.filterMap_append, List.filterMap_append, List.append_assoc, List.filterMap_append,
    List.filterMap_append, filterMap_given, filterMap_given, filterMap_given, filterMap_given]
  cases s.symbol with
  | none => rfl
  | some sym =>
    dsimp only
    rw [channels_symbolEvents]
    rfl

theorem slots_symbolEvents (code : Channel → String) (slots : Slot → String) (s : Symbol) :
    (symbolEvents code s).foldl Event.fill slots = fun slot =>
      match slot with
      | .symbolSize => vec2Text (code (sizeChannel s .vertex))
      | .symbolSizeFragment => vec2Text (code (sizeChannel s .fragment))
      | .symbolRotation => code (rotationChannel s)
      | .symbolOffset => code (offsetChannel s)
      | .symbolColor => symbolColorCode code s
      | .texCoord => code (textureCoordChannel s)
      | slot => slots slot := by
  funext slot
  unfold symbolEvents
  cases s.texture? with
  | none => cases slot <;> rfl
  | some src => cases slot <;> rfl

theorem slots_styleEvents (code : Channel → String) (s : Style) :
    (styleEvents code s).foldl Event.fill Slot.initial = s.slotText code := by
  funext slot
  unfold styleEvents strokeEvents
  simp only [List.foldl_append]
  unfold Style.slotText
  cases s.symbol with
  | none =>
    dsimp only
    cases s.filter.isNull <;> cases s.strokeColor.isNull <;> cases s.strokeWidth.isNull <;>
      cases s.fillColor.isNull <;> cases slot <;> rfl
  | some sym =>
    dsimp only
    rw [slots_symbolEvents]
    cases s.filter.isNull <;> cases s.strokeColor.isNull <;> cases s.strokeWidth.isNull <;>
      cases s.fillColor.isNull <;> cases slot <;> rfl

theorem result_eq (s : Style) (c : Compilation) :
    ((Compilation.result s).run c).1 = {
      shader := c.registry.shader
      attributes := c.registry.attributes.values
      uniforms := c.registry.vars.values
      vars := c.builder.vars
      categories :=
        (registerTexts c.builder.vars c.registry.vars.values c.registry.categories).freeze
      textures := match s.symbol.bind Symbol.texture? with
        | some src => [(textureUniform, src)]
        | none => []
      hasSymbol := s.hasSymbol
      hasStroke := s.hasStroke
      hasFill := s.hasFill } := rfl

end Compilation

/-- The text of a variable that is used as a category. -/
def Variable.text? (vars : Bindings) (u : Variable) : Option String :=
  match u.type, vars.get? u.name with
  | .string, some (.text s) => some s
  | _, _ => none

theorem Variable.text?_eq_some {vars : Bindings} {u : Variable} {s : String} :
    u.text? vars = some s ↔ u.type = .string ∧ vars.get? u.name = some (.text s) := by
  unfold text?
  split
  · next t htype hvalue => simp [htype, hvalue]
  · next hother =>
    constructor
    · exact nofun
    · rintro ⟨htype, hvalue⟩
      exact absurd hvalue (hother s htype)

theorem registerTexts_eq (vars : Bindings) (uses : List Variable) (c : Categories) :
    registerTexts vars uses c = c.registerEach (uses.filterMap (Variable.text? vars)) := by
  have hstep (c : Categories) (u : Variable) :
      (match u.type, vars.get? u.name with
      | .string, some (.text s) => c.register s
      | _, _ => c) = c.registerEach (u.text? vars).toList := by
    unfold Variable.text?
    split
    · rfl
    · rfl
  induction uses generalizing c with
  | nil => rfl
  | cons u uses ih =>
    have hcons : registerTexts vars (u :: uses) c =
        registerTexts vars uses (c.registerEach (u.text? vars).toList) :=
      congrArg (registerTexts vars uses) (hstep c u)
    rw [hcons, ih, List.filterMap_cons]
    cases u.text? vars with
    | none => rfl
    | some s => rfl

/-- The texts of variables come after those that the table has. -/
theorem grows_registerTexts (vars : Bindings) (uses : List Variable) (c : Categories) :
    c.Grows (registerTexts vars uses c).freeze := by
  rw [registerTexts_eq]
  exact (Categories.grows_registerEach _ _).trans (Categories.grows_freeze _)

namespace Compilation

/-- Where the compilation of a style starts. -/
def initial (s : Style) (store : Option Bindings) : Compilation where
  builder := { vars := store.getD (s.vars.getD .empty) }

theorem run_eq (s : Style) {c c' : Compilation} (h : (Compilation.channels s).run c = ((), c')) :
    (Compilation.run s).run c =
      match c'.builder.issues with
      | [] => (.ok ((Compilation.result s).run c').1, ((Compilation.result s).run c').2)
      | issues => (.error issues, c') := by
  rw [Compilation.run, StateT.run_bind, h]
  change (match c'.builder.issues with
    | [] => do return .ok (← Compilation.result s)
    | issues => return .error issues : CompileM (Checked Result)).run c' = _
  cases c'.builder.issues with
  | nil => rfl
  | cons i is => rfl

/-- The outcome of a compilation, by the issues of its channels. -/
theorem compile_fst {s : Style} {store : Option Bindings} {c : Compilation}
    (h : (Compilation.channels s).run (initial s store) = ((), c)) :
    (compile s store).1 =
      match c.builder.issues with
      | [] => .ok ((Compilation.result s).run c).1
      | issues => .error issues := by
  change ((Compilation.run s).run (initial s store)).1 = _
  rw [run_eq s h]
  cases c.builder.issues with
  | nil => rfl
  | cons i is => rfl

/-- A compilation that succeeds has compiled all channels without an issue. -/
theorem channels_of_compile {s : Style} {store : Option Bindings} {r : Result}
    {log : List LogEntry} (h : compile s store = (.ok r, log)) :
    ∃ c, (Compilation.channels s).run (initial s store) = ((), c) ∧ c.builder.issues = [] ∧
      ((Compilation.result s).run c).1 = r := by
  rcases hrun : (Compilation.channels s).run (initial s store) with ⟨⟨⟩, c⟩
  have hok : ((Compilation.run s).run (initial s store)).1 = .ok r := congrArg Prod.fst h
  rw [run_eq s hrun] at hok
  cases hissues : c.builder.issues with
  | nil =>
    rw [hissues] at hok
    exact ⟨c, rfl, hissues, Except.ok.inj hok⟩
  | cons i is =>
    rw [hissues] at hok
    cases hok

/-- Channels that are compiled without an issue leave the events of the style, with the code that
the table of the result gives. -/
theorem trace_of_channels {s : Style} {store : Option Bindings} {c : Compilation}
    (h : (Compilation.channels s).run (initial s store) = ((), c))
    (clean : c.builder.issues = []) :
    c.builder.vars = store.getD (s.vars.getD .empty) ∧
      (∀ sym, s.symbol = some sym → (Shape.ofName? sym.symbolType).isSome = true) ∧
      Trace c.builder.vars {} (styleEvents (Channel.code c.builder.vars
        (registerTexts c.builder.vars c.registry.vars.values c.registry.categories).freeze) s)
        c.registry := by
  have hdoes := Does.channels s (initial s store)
  unfold DoesFrom at hdoes
  rw [h] at hdoes
  obtain ⟨-, hvars, events, htrace, hevents⟩ := hdoes clean
  have hgrows := grows_registerTexts c.builder.vars c.registry.vars.values c.registry.categories
  obtain ⟨hshape, rfl⟩ := hevents (Registry.named_fresh {}) _ hgrows
  rw [← hvars] at htrace
  exact ⟨hvars, hshape, htrace⟩

end Compilation

/-- A compilation that succeeds went through the events of the style, and the result holds what
they left in the registry. -/
theorem compile_ok {s : Style} {store : Option Bindings} {r : Result} {log : List LogEntry}
    (h : compile s store = (.ok r, log)) :
    ∃ registry, Trace r.vars {} (styleEvents (Channel.code r.vars r.categories) s) registry ∧
      r.vars = store.getD (s.vars.getD .empty) ∧ r.shader = registry.shader ∧
      r.attributes = registry.attributes.values ∧ r.uniforms = registry.vars.values ∧
      r.categories = (registerTexts r.vars registry.vars.values registry.categories).freeze := by
  obtain ⟨c, hchannels, clean, hresult⟩ := channels_of_compile h
  obtain ⟨hvars, -, htrace⟩ := trace_of_channels hchannels clean
  rw [result_eq] at hresult
  subst hresult
  exact ⟨c.registry, htrace, hvars, rfl, rfl, rfl, rfl⟩

theorem textures_of_compile {s : Style} {store : Option Bindings} {r : Result}
    {log : List LogEntry} (h : compile s store = (.ok r, log)) :
    r.textures = match s.symbol.bind Symbol.texture? with
      | some src => [(textureUniform, src)]
      | none => [] := by
  obtain ⟨c, -, -, hresult⟩ := channels_of_compile h
  rw [result_eq] at hresult
  subst hresult
  rfl

end ShaderStyle
