import ShaderStyle.Proofs.Compile.Trace

/-! The channels of a style, and the events of a compilation that reports no issue. -/
namespace ShaderStyle

namespace Compilation

def filterChannel (raw : Value) : Channel := ⟨⟨"filter"⟩, raw, .kinds .booleans, .fragment⟩

def sizeChannel (s : Symbol) (stage : Stage) : Channel :=
  ⟨Path.key ⟨"symbol"⟩ "size", orDefault s.size (decimal 1), .kinds (.ofList [.number, .array]),
    stage⟩

def offsetChannel (s : Symbol) : Channel :=
  ⟨Path.key ⟨"symbol"⟩ "offset", orDefault s.offset (.list [decimal 0, decimal 0]),
    .type (.array 2), .vertex⟩

def textureCoordChannel (s : Symbol) : Channel :=
  ⟨Path.key ⟨"symbol"⟩ "textureCoord",
    orDefault s.textureCoord (.list [decimal 0, decimal 0, decimal 1, decimal 1]),
    .type (.array 4), .vertex⟩

def rotationChannel (s : Symbol) : Channel :=
  ⟨Path.key ⟨"symbol"⟩ "rotation", orDefault s.rotation (decimal 0), .kinds .numbers, .vertex⟩

def colorChannel (s : Symbol) : Channel :=
  ⟨Path.key ⟨"symbol"⟩ "color", orDefault s.color (.text "white"), .kinds (.singleton .color),
    .fragment⟩

def opacityChannel (s : Symbol) : Channel :=
  ⟨Path.key ⟨"symbol"⟩ "opacity", orDefault s.opacity (decimal 1), .kinds .numbers, .fragment⟩

def strokeColorChannel (raw : Value) : Channel :=
  ⟨⟨"stroke-color"⟩, raw, .kinds (.singleton .color), .fragment⟩

def strokeWidthChannel (raw : Value) (stage : Stage) : Channel :=
  ⟨⟨"stroke-width"⟩, raw, .kinds .numbers, stage⟩

def fillColorChannel (raw : Value) : Channel :=
  ⟨⟨"fill-color"⟩, raw, .kinds (.singleton .color), .fragment⟩

section

variable (code : Channel → String)

/-- The color of a symbol, inside of its shape and with its image. -/
def symbolColorCode (s : Symbol) : String :=
  let shape := (Shape.ofName? s.symbolType).getD .square
  let plain := symbolColorText (code (colorChannel s)) (code (opacityChannel s))
    (shapeFilter (vec2Text (code (sizeChannel s .fragment)) ++ ".x") shape)
  match s.texture? with
  | none => plain
  | some _ => plain ++ " * texture2D(" ++ textureUniform ++ ", v_texCoord)"

def filterEvents (raw : Value) : List Event :=
  [.emitted (filterChannel raw), .filled .discard ("!" ++ code (filterChannel raw))]

def symbolEvents (s : Symbol) : List Event :=
  [.emitted (sizeChannel s .vertex), .filled .symbolSize (vec2Text (code (sizeChannel s .vertex))),
    .emitted (offsetChannel s), .filled .symbolOffset (code (offsetChannel s)),
    .emitted (textureCoordChannel s), .filled .texCoord (code (textureCoordChannel s)),
    .emitted (rotationChannel s), .filled .symbolRotation (code (rotationChannel s)),
    .rotated s.rotateWithView, .emitted (colorChannel s), .emitted (opacityChannel s),
    .emitted (sizeChannel s .fragment),
    .filled .symbolSizeFragment (vec2Text (code (sizeChannel s .fragment)))] ++
  ((match s.texture? with
    | none => []
    | some _ => [.textured]) ++ [.filled .symbolColor (symbolColorCode code s)])

def strokeEvents (color width : Value) : List Event :=
  (if !color.isNull then
    [.emitted (strokeColorChannel color), .filled .strokeColor (code (strokeColorChannel color))]
  else []) ++
  (if !width.isNull then
    [.emitted (strokeWidthChannel width .vertex),
      .filled .strokeWidth (code (strokeWidthChannel width .vertex)),
      .emitted (strokeWidthChannel width .fragment),
      .filled .strokeWidthFragment (code (strokeWidthChannel width .fragment))]
  else [])

def fillEvents (raw : Value) : List Event :=
  [.emitted (fillColorChannel raw), .filled .fillColor (code (fillColorChannel raw))]

/-- What compiling a style does, if it reports no issue. -/
def styleEvents (s : Style) : List Event :=
  (if !s.filter.isNull then filterEvents code s.filter else []) ++
  ((match s.symbol with
    | none => []
    | some sym => symbolEvents code sym) ++
  (strokeEvents code s.strokeColor s.strokeWidth ++
    if !s.fillColor.isNull then fillEvents code s.fillColor else []))

end

namespace Does

variable {β : Type}

/-- A channel whose code fills a slot, before the rest. -/
theorem fill {m : CompileM (Option String)} {ch : Channel}
    (h : Does m fun code a events => a = some (code ch) ∧ events = [.emitted ch]) (slot : Slot)
    (wrap : String → String) {k : Option String → CompileM β}
    {P : (Channel → String) → β → List Event → Prop}
    (hk : ∀ a, Does (k a) fun code b events => a = some (code ch) →
      P code b (.emitted ch :: .filled slot (wrap (code ch)) :: events)) :
    Does (do
      let a ← m
      if let some t := a then Compilation.setSlot slot (wrap t)
      k a) P := by
  refine h.bind fun a => ?_
  cases a with
  | none => exact (hk none).mono fun code b events _ _ ha => nomatch ha.1
  | some t =>
    refine (setSlot slot (wrap t)).bind fun _ => (hk (some t)).mono ?_
    rintro code b events hrest _ rfl _ ⟨ha, rfl⟩
    have hevents := hrest ha
    rw [← Option.some.inj ha] at hevents
    exact hevents

/-- A channel whose code fills a slot, at the end. -/
theorem fillLast {m : CompileM (Option String)} {ch : Channel}
    (h : Does m fun code a events => a = some (code ch) ∧ events = [.emitted ch]) (slot : Slot)
    (wrap : String → String) :
    Does (do if let some t ← m then Compilation.setSlot slot (wrap t)) fun code _ events =>
      events = [.emitted ch, .filled slot (wrap (code ch))] := by
  refine h.bind fun a => ?_
  cases a with
  | none => exact .pure () fun code events ha => nomatch ha.1
  | some t =>
    refine (setSlot slot (wrap t)).mono ?_
    rintro code _ _ rfl _ ⟨ha, rfl⟩
    rw [Option.some.inj ha]
    rfl

theorem filter (raw : Value) :
    Does (Compilation.filter raw) fun code _ events => events = filterEvents code raw :=
  fillLast (channel _ _ _ _) .discard fun t => "!" ++ t

theorem fillColor (raw : Value) :
    Does (Compilation.fill raw) fun code _ events => events = fillEvents code raw :=
  fillLast (channel _ _ _ _) .fillColor fun t => t

theorem strokeWidth (raw : Value) :
    Does (Compilation.strokeWidth raw) fun code _ events =>
      events = [.emitted (strokeWidthChannel raw .vertex),
        .filled .strokeWidth (code (strokeWidthChannel raw .vertex)),
        .emitted (strokeWidthChannel raw .fragment),
        .filled .strokeWidthFragment (code (strokeWidthChannel raw .fragment))] := by
  refine (channel _ _ _ _).bind fun a => ?_
  cases a with
  | none => exact .pure () fun code events ha => nomatch ha.1
  | some t =>
    refine (setSlot .strokeWidth t).bind fun _ => ?_
    refine (fillLast (channel _ _ _ _) .strokeWidthFragment fun t => t).mono ?_
    rintro code _ _ rfl _ rfl _ ⟨ha, rfl⟩
    rw [Option.some.inj ha]
    rfl

theorem texture (path : Path) (text : String) :
    Does (do
      match (← get).registry.shader.addUniform textureUniform "sampler2D" with
      | .error conflict => Compilation.issue ⟨path, .redeclared conflict⟩
      | .ok shader =>
        changeShader fun _ => shader
        Compilation.setSlot .symbolColor text) fun _ _ events =>
      events = [.textured, .filled .symbolColor text] := by
  intro c
  refine DoesFrom.get ?_
  cases hadd : c.registry.shader.addUniform textureUniform "sampler2D" with
  | error conflict => exact issue _ c
  | ok shader =>
    have htrace : Trace c.builder.vars c.registry [.textured, .filled .symbolColor text] _ :=
      .cons (.textured hadd) (Event.Step.filled .symbolColor text).trace
    exact fun clean => ⟨clean, rfl, _, htrace, fun _ _ _ => rfl⟩

/-- The part of a symbol that depends on the code of its color and its opacity. -/
theorem symbolFragment (s : Symbol) (color opacity : String) :
    Does (Compilation.symbolFragment s (orDefault s.size (decimal 1)) color opacity)
      fun code _ events => color = code (colorChannel s) → opacity = code (opacityChannel s) →
        (Shape.ofName? s.symbolType).isSome = true ∧ events = [.emitted (sizeChannel s .fragment),
          .filled .symbolSizeFragment (vec2Text (code (sizeChannel s .fragment)))] ++
          ((match s.texture? with
            | none => []
            | some _ => [.textured]) ++ [.filled .symbolColor (symbolColorCode code s)]) := by
  refine (channel _ _ _ _).bind fun size => ?_
  cases size with
  | none => exact .pure () fun code events ha => nomatch ha.1
  | some size =>
    refine (setSlot .symbolSizeFragment (vec2Text size)).bind fun _ => ?_
    cases hshape : Shape.ofName? s.symbolType with
    | none => exact issue _
    | some shape =>
      cases htexture : s.texture? with
      | none =>
        refine (setSlot .symbolColor _).mono ?_
        rintro code _ _ rfl _ rfl _ ⟨ha, rfl⟩ rfl rfl
        rw [Option.some.inj ha, symbolColorCode, hshape, htexture]
        exact ⟨rfl, rfl⟩
      | some src =>
        refine (texture _ _).mono ?_
        rintro code _ _ rfl _ rfl _ ⟨ha, rfl⟩ rfl rfl
        rw [Option.some.inj ha, symbolColorCode, hshape, htexture]
        exact ⟨rfl, rfl⟩

theorem symbol (s : Symbol) :
    Does (Compilation.symbol s) fun code _ events =>
      (Shape.ofName? s.symbolType).isSome = true ∧ events = symbolEvents code s := by
  refine fill (channel _ _ _ _) .symbolSize vec2Text fun size => ?_
  refine fill (typedChannel _ _ _ _) .symbolOffset (fun t => t) fun _ => ?_
  refine fill (typedChannel _ _ _ _) .texCoord (fun t => t) fun _ => ?_
  refine fill (channel _ _ _ _) .symbolRotation (fun t => t) fun _ => ?_
  refine (rotate s.rotateWithView).bind fun _ => ?_
  refine (channel _ _ _ _).bind fun color => ?_
  refine (channel _ _ _ _).bind fun opacity => ?_
  cases size with
  | none => exact .pure () fun code _ _ _ _ _ _ _ _ _ hsize => nomatch hsize
  | some size =>
    cases color with
    | none => exact .pure () fun code _ _ _ hcolor => nomatch hcolor.1
    | some color =>
      cases opacity with
      | none => exact .pure () fun code _ hopacity => nomatch hopacity.1
      | some opacity =>
        refine (symbolFragment s color opacity).mono ?_
        rintro code _ events hevents _ ⟨hopacity, rfl⟩ _ ⟨hcolor, rfl⟩ _ rfl _ _ _ _
        obtain ⟨hshape, rfl⟩ := hevents (Option.some.inj hcolor) (Option.some.inj hopacity)
        exact ⟨hshape, rfl⟩

/-- A part that is left out where it is not given. -/
theorem optional {given : Bool} {m : CompileM Unit} {k : CompileM β}
    {events : (Channel → String) → List Event} {P : (Channel → String) → β → List Event → Prop}
    (hm : Does m fun code _ events' => events' = events code)
    (hk : Does k fun code b rest => P code b ((if given then events code else []) ++ rest)) :
    Does (do
      if given then m
      k) P := by
  cases given with
  | true =>
    refine hm.bind fun _ => hk.mono ?_
    rintro code b rest hrest _ rfl
    exact hrest
  | false => exact hk

theorem stroke (color width : Value) :
    Does (Compilation.stroke color width) fun code _ events =>
      events = strokeEvents code color width := by
  have hwidth : Does (if !width.isNull then Compilation.strokeWidth width else Pure.pure ())
      fun code _ events => events = (strokeEvents code .null width) := by
    unfold strokeEvents
    cases width.isNull with
    | true => exact .pure () fun _ => rfl
    | false => exact strokeWidth width
  unfold Compilation.stroke
  cases hcolor : color.isNull with
  | true =>
    refine hwidth.mono fun code _ events hevents => ?_
    rw [hevents, strokeEvents, strokeEvents, hcolor]
    rfl
  | false =>
    refine fill (channel _ _ _ _) .strokeColor (fun t => t) fun _ => ?_
    refine hwidth.mono fun code _ events hevents _ => ?_
    rw [hevents, strokeEvents, strokeEvents, hcolor]
    rfl

/-- The events of a compilation without issues are those of the style, whose symbol has one of the
shapes. -/
theorem channels (s : Style) :
    Does (Compilation.channels s) fun code _ events =>
      (∀ sym, s.symbol = some sym → (Shape.ofName? sym.symbolType).isSome = true) ∧
        events = styleEvents code s := by
  have hfill : Does (if s.hasFill then Compilation.fill s.fillColor else Pure.pure ())
      fun code _ events => events =
        if !s.fillColor.isNull then fillEvents code s.fillColor else [] := by
    unfold Style.hasFill
    cases s.fillColor.isNull with
    | true => exact .pure () fun _ => rfl
    | false => exact fillColor s.fillColor
  have hstroke (code : Channel → String) :
      (if s.hasStroke then strokeEvents code s.strokeColor s.strokeWidth else []) =
        strokeEvents code s.strokeColor s.strokeWidth := by
    unfold Style.hasStroke strokeEvents
    cases s.strokeColor.isNull <;> cases s.strokeWidth.isNull <;> rfl
  refine optional (filter s.filter) ?_
  cases hsymbol : s.symbol with
  | none =>
    refine optional (stroke s.strokeColor s.strokeWidth) (hfill.mono ?_)
    rintro code _ events rfl
    rw [hstroke, styleEvents, hsymbol]
    exact ⟨nofun, rfl⟩
  | some sym =>
    refine (symbol sym).bind fun _ => ?_
    refine optional (stroke s.strokeColor s.strokeWidth) (hfill.mono ?_)
    rintro code _ events rfl _ ⟨hshape, rfl⟩
    rw [hstroke, styleEvents, hsymbol]
    refine ⟨?_, rfl⟩
    rintro _ ⟨⟩
    exact hshape

end Does

end Compilation

end ShaderStyle
