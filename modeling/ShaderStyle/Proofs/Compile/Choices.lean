import ShaderStyle.Proofs.Compile.Comparisons
import ShaderStyle.Proofs.Emission.Choices
import ShaderStyle.Proofs.Emission.ReadBack
import ShaderStyle.Proofs.Typing.Rendering

/-! The first match wins, in emitted code and, for texts, from a feature to the output that its
shaders choose. -/
namespace ShaderStyle

open Compilation
open Glsl (Valuation)

namespace Categories

theorem number_lt_size (c : Categories) (s : String) : c.number s < c.size := by
  by_cases hs : s ∈ c.names
  · obtain ⟨i, hi, hnumber⟩ := number_of_mem hs
    rw [hnumber, size]
    omega
  · rw [number_of_notMem hs]
    omega

theorem numberOf_lt_size (c : Categories) (value : Option Value) : c.numberOf value < c.size := by
  unfold numberOf
  split
  · exact number_lt_size c _
  · omega

end Categories

namespace Expr

/-- Whether a label is the text that a value is. -/
def isTextOf (value : Option Value) (label : Expr) : Bool :=
  label.text?.any fun t => value.bind Value.text? = some t

theorem isTextOf_iff {value : Option Value} {label : Expr} {t : String}
    (h : label.text? = some t) : label.isTextOf value ↔ value = some (.text t) := by
  rw [isTextOf, h, Option.any_some, decide_eq_true_iff]
  cases value with
  | none => simp
  | some v => cases v <;> simp [Value.text?]

theorem text?_of_isLabel {e : Expr} (label : e.isLabel) (type : e.type = .string) :
    ∃ s, e.text? = some s := by
  cases e with
  | text path s => exact ⟨s, rfl⟩
  | number | bool => cases type
  | _ => cases label

theorem code_of_text? {e : Expr} {s : String} (h : e.text? = some s) (stage : Stage)
    (c : Categories) : e.code stage c = Glsl.numberText (.ofInt (c.number s)) := by
  cases e <;> cases h
  rfl

/-- Where the input is a text, so are the labels. -/
theorem Renders.text_labels {place path : Path} {v : Value} {sizes : Nat → Prop}
    {input fallback : Expr} {alternatives : List (Expr × Expr)} {spare : List Expr} {type : Ty}
    (h : Renders place v (.select path input alternatives spare fallback type))
    (typed : (Expr.select path input alternatives spare fallback type).WellTyped sizes)
    (text : input.type = .string) : ∀ a ∈ alternatives, ∃ s, a.1.text? = some s := by
  intro a ha
  cases h with
  | select _ _ labels =>
    cases typed with
    | select _ _ _ _ input_type label_type =>
      exact text?_of_isLabel (labels a ha) ((label_type a ha).trans (input_type.symm.trans text))

end Expr

theorem Compilation.Channel.renders {vars : Bindings} {ch : Channel} {e : Expr}
    (h : ch.outcome vars = .ok e) : e.Renders ch.path ch.raw := by
  unfold outcome at h
  split at h
  · exact buildExpr_renders h
  · exact buildOfType_renders h

theorem Reference.Provided.finite_of_grows {stage : Stage} {r : Registry} {ref : Reference}
    (h : ref.Provided stage r) {c : Categories} (grows : r.categories.Grows c) : ref.Finite c := by
  cases ref with
  | text path s =>
    obtain ⟨settled, finite⟩ := h
    rw [Finite, grows.number_eq settled]
    exact finite
  | number => exact h
  | property | styleVariable => trivial

section

variable {s : Style} {store : Option Bindings} {r : Result} {log : List LogEntry}

/-- The code of the channels of a compiled style reads back, with the numbers of its table. -/
theorem readsBack_of_compile (h : compile s store = (.ok r, log)) {ch : Channel}
    (hch : ch ∈ s.channels) :
    ch.outcome r.vars = .ok (ch.expr r.vars) ∧
      (ch.expr r.vars).ReadsBack ch.stage r.categories := by
  obtain ⟨registry, htrace, -, -, -, -, hcategories⟩ := compile_ok h
  have hgrows : registry.categories.Grows r.categories := by
    rw [hcategories]
    exact grows_registerTexts _ _ _
  have hevent := emitted_mem_styleEvents hch (Channel.code r.vars r.categories)
  obtain ⟨e, before, after, r₁, r₂, t, built, -, hbefore, ran, hafter, -⟩ :=
    htrace.compiled hevent hgrows
  have named := hbefore.named (Registry.named_fresh {})
  have typed := Channel.wellTyped built
  have hprovided := (emit_ok typed named ran).2
  have hlast := (hafter.grows ((emit_steps typed named ran).named named)).trans hgrows
  refine ⟨htrace.outcome_eq hevent, ?_⟩
  rw [Channel.expr_eq built]
  exact typed.readsBack fun ref href => (hprovided ref href).finite_of_grows hlast

end

variable {α : Type}

/-- The shaders get a feature: the attributes of texts have the numbers that are encoded for it,
varyings hand attributes on, and literals for different texts have different values. -/
structure Result.Feeds (r : Result) (feature : Bindings) (V : Valuation α) : Prop where
  encoded {a : Attribute} (ha : a ∈ r.attributes) (text : a.type = .string) {x : Double}
    (value : r.attributeValue feature a = [x]) : V.read a.ident = V.read (Glsl.numberText x)
  passed {v : Varying} (hv : v ∈ r.shader.varyings.values) : V.read v.name = V.read v.expression
  told {i j : Int} (hi : -1 ≤ i ∧ i < r.categories.size) (hj : -1 ≤ j ∧ j < r.categories.size)
    (same : V.read (Glsl.numberText (.ofInt i)) = V.read (Glsl.numberText (.ofInt j))) : i = j

theorem Result.Feeds.read_eq_iff {r : Result} {feature : Bindings} {V : Valuation α}
    (feeds : r.Feeds feature V) {t : String} (ht : t ∈ r.categories.names) {value : Option Value} :
    V.read (Glsl.numberText (.ofInt (r.categories.numberOf value))) =
        V.read (Glsl.numberText (.ofInt (r.categories.number t))) ↔ value = some (.text t) := by
  rw [← Categories.numberOf_eq_iff ht]
  constructor
  · exact feeds.told ⟨Categories.neg_one_le_numberOf _ _, Categories.numberOf_lt_size _ _⟩
      ⟨Categories.neg_one_le_number _ _, Categories.number_lt_size _ _⟩
  · intro hnumber
    rw [hnumber]

/-- The code of a choice by a text has the value of the output of the first label that is the text
of the feature. Where there is none, it has that of the fallback. -/
def Expr.TakesText [DecidableEq α] (V : Valuation α) (code : Expr → String) (feature : Bindings) :
    Expr → Prop
  | .select path (.get place name .string) alternatives spare fallback type =>
    V.Takes V.test alternatives.length
      (code (.select path (.get place name .string) alternatives spare fallback type))
      (code (chosen (isTextOf (feature.get? name)) alternatives fallback))
  | _ => True

theorem Result.shader_after (r : Result) (uses : List Result.Use) :
    (r.after uses).shader = r.shader := by
  induction uses generalizing r with
  | nil => rfl
  | cons use uses ih =>
    rw [after, List.foldl_cons, ← after, ih]
    cases use <;> rfl

section

variable {s : Style} {store : Option Bindings} {r : Result} {log : List LogEntry}
  {uses : List Result.Use} {feature : Bindings} {V : Valuation α}

theorem categories_after_compile (h : compile s store = (.ok r, log)) (uses : List Result.Use) :
    (r.after uses).categories = r.categories := by
  apply Result.categories_after
  rw [categories_of_compile h]
  rfl

/-- A property that is read as a text has the value of the number that is encoded for it. -/
theorem read_property (h : compile s store = (.ok r, log)) {ch : Channel} (hch : ch ∈ s.channels)
    {place : Path} {name : String} (hget : .get place name .string ∈ (ch.expr r.vars).nodes)
    (feeds : (r.after uses).Feeds feature V) :
    V.read ((Expr.get place name .string).code ch.stage r.categories) =
      V.read (Glsl.numberText (.ofInt (r.categories.numberOf (feature.get? name)))) := by
  have hp : (name, Ty.string) ∈ (ch.expr r.vars).properties :=
    List.mem_filterMap.mpr ⟨_, hget, rfl⟩
  have hattribute : V.read (Glsl.attributeName name) =
      V.read (Glsl.numberText (.ofInt (r.categories.numberOf (feature.get? name)))) := by
    have ha := List.mem_of_find?_eq_some (attribute?_of_property h hch hp)
    rw [← Result.attributes_after r uses] at ha
    refine feeds.encoded ha rfl ?_
    rw [Result.attributeValue, categories_after_compile h]
    exact Categories.encode_string _ _
  cases hstage : ch.stage with
  | vertex => exact hattribute
  | fragment =>
    have hv : Registry.passing name .string ∈ (r.after uses).shader.varyings.values := by
      rw [Result.shader_after, mem_varyings_iff h]
      exact ⟨ch, hch, hstage, _, hp, rfl⟩
    exact (feeds.passed hv).trans hattribute

/-- A property equals a label exactly where the feature holds the text of the label. -/
theorem read_property_eq_label_iff (h : compile s store = (.ok r, log)) {ch : Channel}
    (hch : ch ∈ s.channels) (feeds : (r.after uses).Feeds feature V) {place : Path} {name : String}
    (hget : .get place name .string ∈ (ch.expr r.vars).nodes) {label : Expr}
    (hlabel : label ∈ (ch.expr r.vars).nodes) {t : String} (htext : label.text? = some t) :
    V.read ((Expr.get place name .string).code ch.stage r.categories) =
        V.read (label.code ch.stage r.categories) ↔ feature.get? name = some (.text t) := by
  have ht : t ∈ (r.after uses).categories.names := by
    rw [categories_after_compile h]
    refine mem_names_of_literal h hch ?_
    rw [← Expr.texts_eq]
    exact List.mem_filterMap.mpr ⟨label, hlabel, htext⟩
  rw [read_property h hch hget feeds, Expr.code_of_text? htext, ← feeds.read_eq_iff ht,
    categories_after_compile h]

/-- In a compiled style, a choice by a text takes the output for the text of the feature. -/
theorem takesText_of_compile [DecidableEq α] (h : compile s store = (.ok r, log)) {ch : Channel}
    (hch : ch ∈ s.channels) (feeds : (r.after uses).Feeds feature V) {n : Expr}
    (hn : n ∈ (ch.expr r.vars).nodes) :
    n.TakesText V (Expr.code ch.stage r.categories) feature := by
  obtain ⟨built, reads⟩ := readsBack_of_compile h hch
  unfold Expr.TakesText
  split
  · next path place name alternatives spare fallback type =>
    have hpart {x : Expr} (hx : x ∈ (Expr.get place name .string) :: laidOut alternatives) :
        x ∈ (ch.expr r.vars).nodes := by
      apply Expr.withParts_nodes _ _ hn
      exact Expr.mem_nodes.mpr (Or.inr ⟨x, List.mem_append_left [fallback] hx, x.mem_nodes_self⟩)
    obtain ⟨indices, v, -, -, hrenders⟩ := (Channel.renders built).nodes _ hn
    have hlabels := hrenders.text_labels ((Channel.wellTyped built).of_nodes _ hn) rfl
    have htext (a b : Expr) (ha : (a, b) ∈ alternatives) :
        decide (V.read ((Expr.get place name .string).code ch.stage r.categories) =
          V.read (a.code ch.stage r.categories)) = a.isTextOf (feature.get? name) := by
      obtain ⟨t, htext⟩ := hlabels (a, b) ha
      have hnode : a ∈ (ch.expr r.vars).nodes :=
        hpart (List.mem_cons_of_mem _ (mem_laidOut.mpr ⟨(a, b), ha, Or.inl rfl⟩))
      rw [Bool.eq_iff_iff, decide_eq_true_iff, Expr.isTextOf_iff htext]
      exact read_property_eq_label_iff h hch feeds (hpart List.mem_cons_self) hnode htext
    rw [← chosen_congr htext]
    exact (reads.node hn).takesFirst V
  · trivial

end

/-- The first match wins. Whatever values the input, the labels, the conditions and the outputs of a
choice have, its emitted code has the value of the output of the first label that equals the input,
or of the first condition that holds, and of the fallback where there is none. In a compiled style,
a choice by a text of a feature takes the output of the first label that is this text, and the
fallback for all else that the feature may hold. -/
theorem compile_takesFirst [DecidableEq α] (V : Valuation α) :
    (∀ (e : Expr) (stage : Stage) (r r' : Registry) (t : Glsl.Term), e.Built (fun _ => True) →
      r.Reachable → (emit stage e).run.run r = (.ok t, r') →
      t.text = e.code stage r'.categories ∧
        ∀ n ∈ e.nodes, (V.read (n.code stage r'.categories)).isSome ∧
          n.TakesFirst V (Expr.code stage r'.categories)) ∧
    ∀ (s : Style) (store : Option Bindings) (r : Result) (log : List LogEntry),
      compile s store = (.ok r, log) →
      r.shader.slots = s.slotText (Channel.code r.vars r.categories) ∧
        ∀ ch ∈ s.channels, ch.outcome r.vars = .ok (ch.expr r.vars) ∧
          ∀ n ∈ (ch.expr r.vars).nodes, n.TakesFirst V (Expr.code ch.stage r.categories) ∧
            ∀ uses feature, (r.after uses).Feeds feature V →
              n.TakesText V (Expr.code ch.stage r.categories) feature := by
  constructor
  · intro e stage r r' t built reachable ran
    have typed := built.wellTyped
    obtain ⟨rfl, hprovided⟩ := emit_ok typed reachable.named ran
    have reads : e.ReadsBack stage r'.categories :=
      typed.readsBack fun ref href => (hprovided ref href).finite
    refine ⟨rfl, fun n hn => ⟨?_, (reads.node hn).takesFirst V⟩⟩
    rw [Valuation.read, reads n hn]
    rfl
  · intro s store r log h
    obtain ⟨registry, htrace, -, hshader, -⟩ := compile_ok h
    refine ⟨?_, fun ch hch => ?_⟩
    · rw [hshader, htrace.slots (Registry.named_fresh {}), ← slots_styleEvents]
    · obtain ⟨built, reads⟩ := readsBack_of_compile h hch
      exact ⟨built, fun n hn => ⟨(reads.node hn).takesFirst V,
        fun uses feature feeds => takesText_of_compile h hch feeds hn⟩⟩

/-- Values that are written as texts, where all names have one value. -/
private def namedValue (value : String) : Glsl.Tree → String
  | .number text => text
  | .negate x => "-" ++ namedValue value x
  | .name _ => value
  | .binary .equal x y => if namedValue value x = namedValue value y then "true" else "false"
  | .choose condition yes no =>
    if namedValue value condition = "true" then namedValue value yes else namedValue value no
  | _ => ""

private def namedValues (value : String) : Valuation String := ⟨namedValue value, (· == "true")⟩

private theorem namedValues_lawful (value : String) : (namedValues value).Lawful where
  equal x y := by simp [namedValues, namedValue]
  choose condition yes no := by simp [namedValues, namedValue]

/-- Two lanes are four wide. The second label is never reached. -/
private def lanes : Value :=
  .list [.text "match", .list [.text "get", .text "lanes"], .double (.finite 2),
    .double (.finite 4), .double (.finite 2), .double (.finite 3), .double (.finite 1)]

private def lanesExpr : Expr :=
  .select ⟨"width"⟩ (.get ⟨"width[1]"⟩ "lanes" .number)
    [(.number ⟨"width[2]"⟩ (.finite 2), .number ⟨"width[3]"⟩ (.finite 4)),
      (.number ⟨"width[4]"⟩ (.finite 2), .number ⟨"width[5]"⟩ (.finite 3))]
    [] (.number ⟨"width[6]"⟩ (.finite 1)) .number

/-- The width of a way by its kind. The second label is never reached. -/
private def ways : Style where
  strokeWidth := .list [.text "match", .list [.text "get", .text "kind", .text "string"],
    .text "road", .double (.finite 4), .text "road", .double (.finite 3), .double (.finite 1)]

private def way (kind : Value) : Bindings := .ofList [("kind", kind)]

/-- The tables of a result for ways. -/
private def WaysTables (r : Result) : Prop :=
  r.attributes = [⟨"kind", "a_kind", some "v_kind", .string⟩] ∧
    r.shader.varyings.values = [⟨"v_kind", "float", "a_kind"⟩] ∧ r.categories.names = ["road"]
  deriving Decidable

/-- What a choice by a text is made from: the property, the labels with the code of their outputs,
and the code of the fallback. -/
private def textChoice? (c : Categories) :
    Expr → Option (String × List (Option String × String) × String)
  | .select _ (.get _ name .string) alternatives _ fallback _ =>
    some (name, alternatives.map fun a => (a.1.text?, a.2.code .fragment c),
      fallback.code .fragment c)
  | _ => none

private theorem read_textChoice {e : Expr} {c : Categories} {name last : String}
    {widths : List (Option String × String)} {V : Valuation String} {feature : Bindings}
    (lawful : V.Lawful) (h : textChoice? c e = some (name, widths, last))
    (takes : e.TakesText V (Expr.code .fragment c) feature) :
    V.read (e.code .fragment c) = V.read (chosen (fun label => label.any fun t =>
      (feature.get? name).bind Value.text? = some t) widths last) := by
  unfold textChoice? at h
  split at h
  · cases h
    rw [chosen_map, takes.reads lawful]
    rfl
  · cases h

private theorem read_name (value ident : String) (name : Glsl.Token.isName ident.toList = true)
    (family : ident.toList[1]? = some '_') : (namedValues value).read ident = some value := by
  rw [Valuation.read, (Glsl.Spells.ident name family).parse_eq (by decide)]
  rfl

private theorem read_literal (value : String) {x : Double} (finite : x.isFinite = true) :
    (namedValues value).read (Glsl.numberText x) = some (Glsl.numberText x) := by
  rw [Valuation.read]
  rcases Glsl.numberText_cases finite with hdecimal | ⟨digits, hdecimal, htext⟩
  · rw [(Glsl.Spells.decimal hdecimal).parse_eq (by decide)]
    rfl
  · rw [htext, (Glsl.Spells.negative hdecimal).parse_eq (by decide)]
    rfl

private theorem feeds_way {r : Result} (tables : WaysTables r) (kind : Value) :
    r.Feeds (way kind)
      (namedValues (Glsl.numberText (.ofInt (r.categories.numberOf (some kind))))) := by
  obtain ⟨hattributes, hvaryings, hnames⟩ := tables
  have hsize : r.categories.size = 1 := congrArg List.length hnames
  have hsmall {i : Int} (hi : -1 ≤ i ∧ i < r.categories.size) : i = -1 ∨ i = 0 := by omega
  have hread (value : String) {i : Int} (hi : -1 ≤ i ∧ i < r.categories.size) :
      (namedValues value).read (Glsl.numberText (.ofInt i)) =
        some (Glsl.numberText (.ofInt i)) := by
    apply read_literal
    rcases hsmall hi with rfl | rfl
    · decide +kernel
    · decide +kernel
  have hne : Glsl.numberText (.ofInt (-1)) ≠ Glsl.numberText (.ofInt 0) := by decide +kernel
  refine ⟨fun {a} ha _ {x} hx => ?_, fun {v} hv => ?_, fun {i j} hi hj same => ?_⟩
  · rw [hattributes, List.mem_singleton] at ha
    have hencode : encode .string r.categories (some kind) = [x] := by
      rw [← hx, ha]
      rfl
    rw [Categories.encode_string] at hencode
    cases hencode
    rw [ha, read_name _ "a_kind" (by decide) (by decide), hread]
    exact ⟨Categories.neg_one_le_numberOf _ _, Categories.numberOf_lt_size _ _⟩
  · rw [hvaryings, List.mem_singleton] at hv
    rw [hv, read_name _ "v_kind" (by decide) (by decide),
      read_name _ "a_kind" (by decide) (by decide)]
  · rw [hread _ hi, hread _ hj, Option.some.injEq] at same
    rcases hsmall hi with rfl | rfl <;> rcases hsmall hj with rfl | rfl
    · rfl
    · exact absurd same hne
    · exact absurd same.symm hne
    · rfl

private theorem compile_ways :
    ∃ r log, compile ways none = (.ok r, log) ∧ WaysTables r ∧
      textChoice? r.categories ((strokeWidthChannel ways.strokeWidth .fragment).expr r.vars) =
        some ("kind", [(some "road", "4.0"), (some "road", "3.0")], "1.0") := by
  have hcompile : (match (compile ways none).1 with
      | .ok r => decide (WaysTables r ∧
          textChoice? r.categories ((strokeWidthChannel ways.strokeWidth .fragment).expr r.vars) =
            some ("kind", [(some "road", "4.0"), (some "road", "3.0")], "1.0"))
      | .error _ => false) = true := by decide +kernel
  rcases hrun : compile ways none with ⟨outcome, log⟩
  rw [hrun] at hcompile
  cases outcome with
  | error is => cases hcompile
  | ok r => exact ⟨r, log, rfl, of_decide_eq_true hcompile⟩

/-- A road gets the width of its first label. A kind that is no text gets the last width, also if it
is the number of a text. -/
theorem compile_takesFirst_ways :
    (∃ t r', (emit .vertex lanesExpr).run.run {} = (.ok t, r') ∧
      t.text = "(a_lanes == 2.0 ? 4.0 : (a_lanes == 2.0 ? 3.0 : 1.0))" ∧
      lanesExpr.TakesFirst (namedValues "2.0") (Expr.code .vertex r'.categories)) ∧
    ∃ r log, compile ways none = (.ok r, log) ∧
      r.Feeds (way (.text "road")) (namedValues "0.0") ∧
      (namedValues "0.0").read (r.shader.slots .strokeWidthFragment) = some "4.0" ∧
      r.Feeds (way (.double (.finite 0))) (namedValues "-1.0") ∧
      (namedValues "-1.0").read (r.shader.slots .strokeWidthFragment) = some "1.0" := by
  constructor
  · have hbuild : Builder.build ⟨.empty, []⟩ ⟨"width"⟩ lanes .numbers =
        (some lanesExpr, ⟨.empty, []⟩) := by cbv
    have hfirst := (compile_takesFirst (namedValues "2.0")).1 lanesExpr .vertex {} _ _
      ⟨_, _, _, _, Or.inl ⟨_, hbuild⟩⟩ (.fresh {}) rfl
    exact ⟨_, _, rfl, by decide +kernel, (hfirst.2 _ (Expr.mem_nodes_self _)).2⟩
  · obtain ⟨r, log, hrun, tables, hchoice⟩ := compile_ways
    have hread (value : String) (feature : Bindings)
        (feeds : r.Feeds feature (namedValues value)) :
        (namedValues value).read (r.shader.slots .strokeWidthFragment) =
          (namedValues value).read (chosen (fun label => label.any fun t =>
            (feature.get? "kind").bind Value.text? = some t)
            [(some "road", "4.0"), (some "road", "3.0")] "1.0") := by
      obtain ⟨hslots, hchannels⟩ :=
        (compile_takesFirst (namedValues value)).2 ways none r log hrun
      obtain ⟨-, hnodes⟩ := hchannels (strokeWidthChannel ways.strokeWidth .fragment)
        (List.mem_cons_of_mem _ List.mem_cons_self)
      rw [hslots]
      exact read_textChoice (namedValues_lawful value) hchoice
        ((hnodes _ (Expr.mem_nodes_self _)).2 [] feature feeds)
    have hroad := feeds_way tables (.text "road")
    have hother := feeds_way tables (.double (.finite 0))
    have hzero : Glsl.numberText (.ofInt (r.categories.numberOf (some (.text "road")))) =
        "0.0" := by
      rw [Categories.numberOf, Categories.number, Categories.index?, tables.2.2]
      decide +kernel
    have hminus : Glsl.numberText (.ofInt (r.categories.numberOf (some (.double (.finite 0))))) =
        "-1.0" := by
      change Glsl.numberText (.ofInt (-1)) = "-1.0"
      decide +kernel
    rw [hzero] at hroad
    rw [hminus] at hother
    have hfour : "4.0" = Glsl.numberText (.finite 4) := by decide +kernel
    have hone : "1.0" = Glsl.numberText (.finite 1) := by decide +kernel
    refine ⟨r, log, hrun, hroad, ?_, hother, ?_⟩
    · refine (hread _ _ hroad).trans ?_
      rw [hfour]
      exact read_literal "0.0" rfl
    · refine (hread _ _ hother).trans ?_
      rw [hone]
      exact read_literal "-1.0" rfl

end ShaderStyle
