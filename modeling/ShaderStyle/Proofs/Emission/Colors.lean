import ShaderStyle.Encoding
import ShaderStyle.Proofs.Color.Packing
import ShaderStyle.Proofs.Color.Range
import ShaderStyle.Proofs.Emission.Values
import ShaderStyle.Proofs.Glsl.Unpacking

/-! The ways of a color into a shader lead to one value. -/
namespace ShaderStyle

open Glsl (Meaning Tree)

namespace Color

variable {red green blue alpha : Nat}

/-- What the literal of a color of eight bits a channel holds in exact arithmetic: the premultiplied
channels. -/
def painted (red green blue alpha : Nat) : List Rat :=
  (ofBytes red green blue alpha : Color Rat).premultiplied

theorem painted_eq : painted red green blue alpha =
    [(red : Rat) / 255 * (alpha / 255), green / 255 * (alpha / 255), blue / 255 * (alpha / 255),
      alpha / 255] := rfl

/-- The product of two fractions on doubles. -/
theorem exists_product {x y u v : Rat} (hx : 0 ≤ x) (hx' : x ≤ 1) (hy : 0 ≤ y) (hy' : y ≤ 1)
    (hu : |x - u| ≤ 1 / 2 ^ 53) (hv : |y - v| ≤ 1 / 2 ^ 53) (hv' : |v| ≤ 1) :
    ∃ z : Rat, Double.mul (.finite x) (.finite y) = .finite z ∧ |z - u * v| ≤ 1 / 2 ^ 51 := by
  have hle : x * y ≤ (1 : Nat) := by
    push_cast
    exact mul_le_one₀ hx' hy hy'
  obtain ⟨z, hz, -, -, herror⟩ := Double.rounded_near (mul_nonneg hx hy) hle (by decide)
  refine ⟨z, (Double.mul_finite hx hy).trans hz, ?_⟩
  have hlog : (2 : Rat) ^ Nat.log2 1 / 2 ^ 53 = 1 / 2 ^ 53 := by
    rw [show Nat.log2 1 = 0 by decide, pow_zero]
  have hfirst : |x * (y - v)| ≤ 1 / 2 ^ 53 := by
    rw [abs_mul, abs_of_nonneg hx]
    calc
      x * |y - v| ≤ 1 * (1 / 2 ^ 53) := mul_le_mul hx' hv (abs_nonneg _) zero_le_one
      _ = 1 / 2 ^ 53 := one_mul _
  have hsecond : |(x - u) * v| ≤ 1 / 2 ^ 53 := by
    rw [abs_mul]
    calc
      |x - u| * |v| ≤ 1 / 2 ^ 53 * 1 := mul_le_mul hu hv' (abs_nonneg _) (by positivity)
      _ = 1 / 2 ^ 53 := mul_one _
  calc
    |z - u * v| = |(z - x * y) + (x * (y - v) + (x - u) * v)| := by
      congr 1
      ring
    _ ≤ |z - x * y| + (|x * (y - v)| + |(x - u) * v|) :=
      (abs_add_le _ _).trans (add_le_add_right (abs_add_le _ _) _)
    _ ≤ 1 / 2 ^ 53 + (1 / 2 ^ 53 + 1 / 2 ^ 53) :=
      add_le_add (herror.trans_eq hlog) (add_le_add hfirst hsecond)
    _ ≤ 1 / 2 ^ 51 := by norm_num

/-- Whether numbers are those of a vector, up to the rounding of two products. -/
def Near (xs ys : List Rat) : Prop := List.Forall₂ (fun x y => |x - y| ≤ 1 / 2 ^ 51) xs ys

/-- On doubles, the premultiplied channels of eight bits are close to the exact ones. -/
theorem exists_premultiplied (hr : red ≤ 255) (hg : green ≤ 255) (hb : blue ≤ 255)
    (ha : alpha ≤ 255) : ∃ r g b a : Rat,
      (ofBytes red green blue alpha : Rgba).premultiplied =
          [.finite r, .finite g, .finite b, .finite a] ∧
        Near [r, g, b, a] (painted red green blue alpha) := by
  obtain ⟨y, hy, hlow, hhigh, hnear⟩ := exists_fraction ha
  have hexact : |(alpha : Rat) / 255| ≤ 1 := by
    rw [abs_of_nonneg (by positivity), div_le_one (by norm_num)]
    exact_mod_cast ha
  have hchannel {n : Nat} (hn : n ≤ 255) : ∃ z : Rat,
      Double.mul (.div (.ofNat n) (.ofNat 255)) (.div (.ofNat alpha) (.ofNat 255)) = .finite z ∧
        |z - n / 255 * (alpha / 255)| ≤ 1 / 2 ^ 51 := by
    obtain ⟨x, hx, hlow', hhigh', hnear'⟩ := exists_fraction hn
    rw [hx, hy]
    exact exists_product hlow' hhigh' hlow hhigh hnear' hnear hexact
  obtain ⟨r, hr', hrnear⟩ := hchannel hr
  obtain ⟨g, hg', hgnear⟩ := hchannel hg
  obtain ⟨b, hb', hbnear⟩ := hchannel hb
  have halpha : |y - alpha / 255| ≤ 1 / 2 ^ 51 := hnear.trans (by norm_num)
  refine ⟨r, g, b, y, ?_, .cons hrnear (.cons hgnear (.cons hbnear (.cons halpha .nil)))⟩
  rw [← hr', ← hg', ← hb', ← hy]
  rfl

end Color

/-- Whether a name holds the numbers that a color of eight bits a channel is stored as. -/
def Glsl.Meaning.Stores (m : Meaning Rat) (ident : String) (red green blue alpha : Nat) : Prop :=
  ∃ (v : Value) (categories : Categories),
    Color.ofValue v = .ok (Color.ofBytes red green blue alpha) ∧
      m.other (.name ident) = some ((encode .color categories (some v)).map Double.toRat)

namespace Expr

variable {m : Meaning Rat} {stage : Stage} {c : Categories} {red green blue alpha : Nat}

/-- Whether the code of a color, where it is one of eight bits a channel, has the premultiplied
channels for its value. The numbers of a literal were rounded on doubles, and are close to them. -/
def Paints (m : Meaning Rat) (stage : Stage) (code : Expr → String)
    (red green blue alpha : Nat) : Expr → Prop
  | .color path rgba =>
    rgba = .ofBytes red green blue alpha → (∀ x ∈ rgba.premultiplied, m.Reads x) →
      ∃ xs, m.read (code (.color path rgba)) = some xs ∧
        Color.Near xs (Color.painted red green blue alpha)
  | .get path name .color =>
    m.Stores (Glsl.attributeName name) red green blue alpha →
      (stage = .fragment → m.other (.name (Glsl.varyingName name)) =
        m.read (Registry.attributeTerm (Glsl.attributeName name) .color).text) →
      m.read (code (.get path name .color)) = some (Color.painted red green blue alpha)
  | .var path name .color =>
    m.Stores (Glsl.uniformName name) red green blue alpha →
      m.read (code (.var path name .color)) = some (Color.painted red green blue alpha)
  | .call path .color args type =>
    m.Counts →
      (args.map fun x => m.read (code x)) =
          [some [(red : Rat)], some [(green : Rat)], some [(blue : Rat)],
            some [(alpha : Rat) / 255]] ∨
        (alpha = 255 ∧ (args.map fun x => m.read (code x)) =
          [some [(red : Rat)], some [(green : Rat)], some [(blue : Rat)]]) →
      m.read (code (.call path .color args type)) =
        some (Color.painted red green blue alpha)
  | _ => True

theorem value?_unpacked {ident : String} (hr : red ≤ 255) (hg : green ≤ 255) (hb : blue ≤ 255)
    (ha : alpha ≤ 255) (h : m.Stores ident red green blue alpha) :
    (Tree.unpacked ident).value? m = some (Color.painted red green blue alpha) := by
  obtain ⟨v, categories, hcolor, hheld⟩ := h
  have hpacked : (Color.ofBytes red green blue alpha : Rgba).pack =
      ⟨.finite ((red * 256 + green : Nat) : Rat), .finite ((blue * 256 + alpha : Nat) : Rat)⟩ := by
    rw [(Color.eightBit_double.coded_ofBytes hr hg hb ha).pack_eq]
    exact congrArg₂ _ (Double.ofNat_eq_finite (by omega)) (Double.ofNat_eq_finite (by omega))
  have hencoded : encode .color categories (some v) =
      [.finite ((red * 256 + green : Nat) : Rat), .finite ((blue * 256 + alpha : Nat) : Rat)] := by
    simp only [encode, Option.getD_some, hcolor, hpacked, Color.Packed.toList]
  have hname : (Tree.name ident).value? m = some
      [((red * 256 + green : Nat) : Rat), ((blue * 256 + alpha : Nat) : Rat)] := by
    rw [← Double.toRat.eq_1 ((red * 256 + green : Nat) : Rat),
      ← Double.toRat.eq_1 ((blue * 256 + alpha : Nat) : Rat)]
    rw [hencoded] at hheld
    exact hheld
  rw [Tree.unpacked, Tree.value?_call _ (Tree.values?_cons hname Tree.values?_nil),
    Color.painted_eq, ← Glsl.unpacked_words (by omega) (by omega)]
  rfl

theorem value?_literals {xs : List Double} (h : ∀ x ∈ xs, m.Reads x) :
    Tree.values? m (xs.map .literal) = some (xs.map fun x => [x.toRat]) := by
  induction xs with
  | nil => rfl
  | cons x xs ih =>
    obtain ⟨hx, hxs⟩ := List.forall_mem_cons.mp h
    exact Tree.values?_cons (hx.trans (by rw [Rat.cast_id])) (ih hxs)

/-- The literal of a color of eight bits a channel. -/
theorem exists_value?_literal (hr : red ≤ 255) (hg : green ≤ 255) (hb : blue ≤ 255)
    (ha : alpha ≤ 255)
    (h : ∀ x ∈ (Color.ofBytes red green blue alpha : Rgba).premultiplied, m.Reads x) :
    ∃ xs, (Tree.vector ((Color.ofBytes red green blue alpha : Rgba).premultiplied.map
        .literal)).value? m = some xs ∧ Color.Near xs (Color.painted red green blue alpha) := by
  obtain ⟨r, g, b, a, hxs, hnear⟩ := Color.exists_premultiplied hr hg hb ha
  have hvalues := value?_literals h
  have hfour : "vec" ++ toString 4 = "vec4" := by decide +kernel
  rw [hxs] at hvalues ⊢
  refine ⟨[r, g, b, a], ?_, hnear⟩
  rw [Tree.vector, List.length_map, Tree.value?_call _ hvalues]
  exact (congrArg (m.call? · _) hfour).trans rfl

/-- Three or four operands that have the channels of a color for their values. -/
theorem value?_colorOperands {args : List Tree} (counts : m.Counts)
    (h : args.map (Tree.value? m) =
          [some [(red : Rat)], some [(green : Rat)], some [(blue : Rat)],
            some [(alpha : Rat) / 255]] ∨
      (alpha = 255 ∧ args.map (Tree.value? m) =
        [some [(red : Rat)], some [(green : Rat)], some [(blue : Rat)]])) :
    (Op.tree .color args).value? m = some (Color.painted red green blue alpha) := by
  rcases h with h | ⟨rfl, h⟩
  · obtain ⟨r, rest, rfl, hr, h⟩ := List.map_eq_cons_iff.mp h
    obtain ⟨g, rest, rfl, hg, h⟩ := List.map_eq_cons_iff.mp h
    obtain ⟨b, rest, rfl, hb, h⟩ := List.map_eq_cons_iff.mp h
    obtain ⟨a, rest, rfl, ha, h⟩ := List.map_eq_cons_iff.mp h
    obtain rfl := List.map_eq_nil_iff.mp h
    exact Tree.value?_colorAlpha counts hr hg hb ha
  · obtain ⟨r, rest, rfl, hr, h⟩ := List.map_eq_cons_iff.mp h
    obtain ⟨g, rest, rfl, hg, h⟩ := List.map_eq_cons_iff.mp h
    obtain ⟨b, rest, rfl, hb, h⟩ := List.map_eq_cons_iff.mp h
    obtain rfl := List.map_eq_nil_iff.mp h
    exact (Tree.value?_color counts hr hg hb).trans (by simp [Color.painted_eq])

/-- A varying takes its value from the unpacked attribute. -/
theorem read_attributeTerm (name : String) :
    m.read (Registry.attributeTerm (Glsl.attributeName name) .color).text =
      (Tree.unpacked (Glsl.attributeName name)).value? m := by
  have hspelled : Glsl.Spelled .color _ _ :=
    Glsl.Spelled.unpacked (Glsl.isName_attributeName name) (Glsl.getElem_attributeName name)
  have hparse := (hspelled.spells Glsl.topLevel (by decide) (by decide)).parse_eq (by decide)
  rw [Registry.attributeTerm, Meaning.read, hparse, Option.bind_some]

theorem ReadsBack.paints {e : Expr} (reads : e.ReadsBack stage c) (hr : red ≤ 255)
    (hg : green ≤ 255) (hb : blue ≤ 255) (ha : alpha ≤ 255) :
    e.Paints m stage (code stage c) red green blue alpha := by
  cases e with
  | color path rgba =>
    rintro rfl hliterals
    rw [reads.read_eq, tree]
    exact exists_value?_literal hr hg hb ha hliterals
  | get path name type =>
    cases type with
    | color =>
      intro hstores hvarying
      have hunpacked := value?_unpacked hr hg hb ha hstores
      rw [reads.read_eq, tree]
      cases stage with
      | vertex =>
        rw [if_pos ⟨rfl, rfl⟩]
        exact hunpacked
      | fragment =>
        rw [read_attributeTerm, hunpacked] at hvarying
        rw [if_neg (by simp)]
        exact hvarying rfl
    | _ => trivial
  | var path name type =>
    cases type with
    | color =>
      intro hstores
      rw [reads.read_eq, tree, if_pos rfl]
      exact value?_unpacked hr hg hb ha hstores
    | _ => trivial
  | call path op args type =>
    cases op with
    | color =>
      intro hcounts hargs
      have hvalues : (args.map fun x => m.read (x.code stage c)) =
          (args.map (tree stage c)).map (Tree.value? m) := by
        rw [List.map_map]
        exact List.map_congr_left fun x hx => reads.read_part hx
      rw [reads.read_eq, tree, treeList_eq]
      rw [hvalues] at hargs
      exact value?_colorOperands hcounts hargs
    | _ => trivial
  | _ => trivial

end Expr

/-- Packed colors go round. Packing a color keeps as much of it as rounding it to eight bits a
channel does, in exact arithmetic and on doubles. The helper in the shader is the arithmetic that
gets the rounded color back, premultiplied. Names and hexadecimal digits are not rounded. A color of
eight bits a channel has one value in emitted code, where it is unpacked from an attribute or a
uniform, where it is a literal, and where an operator makes it from its channels. -/
theorem color_roundTrips :
    (∀ c : Color Rat, c.RoundTrips (fun _ => True) ∧
      Glsl.unpacked c.pack.redGreen c.pack.blueAlpha = c.quantize.premultiplied) ∧
    (∀ c : Rgba, .nan ∉ c.toList → c.RoundTrips (· ≠ .nan)) ∧
    (Glsl.unpackFunction =
        "vec4 unpackColor(vec2 packedColor) \x7b\n  return " ++
          Glsl.unpackedText "\n    " ",\n    " "\n  " (.name "packedColor[0]")
            (.name "packedColor[1]") ++ ";\n\x7d" ∧
      ∀ (m : Meaning Rat) {t u : Glsl.Term} {x y : Tree} {p q : Rat}, m.Counts →
        Glsl.Spells 1 t.text x → Glsl.Spells 1 u.text y → x.value? m = some [p] →
        y.value? m = some [q] →
        m.read (Glsl.unpackedText "" ", " "" t u) = some (Glsl.unpacked p q)) ∧
    (∀ (s : String) (c : Rgba), Color.ofText s = .ok c → Color.componentsOf s = [] →
      Color.OfBytes c) ∧
    ∀ (m : Meaning Rat) {e : Expr} {stage : Stage} {r r' : Registry} {t : Glsl.Term},
      e.Built (fun _ => True) → r.Reachable → (emit stage e).run.run r = (.ok t, r') →
      t.text = e.code stage r'.categories ∧
        ∀ n ∈ e.nodes, ∀ red green blue alpha : Nat,
          red ≤ 255 → green ≤ 255 → blue ≤ 255 → alpha ≤ 255 →
          n.Paints m stage (Expr.code stage r'.categories) red green blue alpha := by
  refine ⟨fun c => ⟨Color.eightBit_rat.roundTrips fun _ _ => trivial, ?_⟩, fun c hc => ?_,
    ⟨Glsl.unpackFunction_eq, fun m {t u x y p q} counts ht hu hx hy => ?_⟩,
    fun s c hread hnone => ?_, fun m {e stage r r' t} built reachable ran => ?_⟩
  · obtain ⟨red, green, blue, alpha, hcoded⟩ :=
      Color.eightBit_rat.exists_coded (c := c) fun _ _ => trivial
    rw [hcoded.quantize_eq, hcoded.pack_eq]
    exact Glsl.unpacked_words (Nat.lt_succ_of_le hcoded.green_le)
      (Nat.lt_succ_of_le hcoded.alpha_le)
  · exact Color.eightBit_double.roundTrips fun x hx hnan => hc (hnan ▸ hx)
  · exact counts.read_unpacked ht hu hx hy
  · exact Color.ofBytes_of_componentsOf hread hnone
  · obtain ⟨htext, reads⟩ := emit_readsBack built reachable ran
    exact ⟨htext, fun n hn red green blue alpha hr hg hb ha =>
      (reads.node hn).paints hr hg hb ha⟩

/-- A text that is a color is built to its literal where a color is due. -/
theorem Builder.build_colorText (b : Builder) (path : Path) {s : String} {c : Rgba}
    (h : Color.ofText s = .ok c) :
    b.build path (.text s) (.singleton .color) = (some (.color path c), b) := by
  have hcolor : Color.isColorText s = true := by
    rw [Color.isColorText, h]
    rfl
  have htypes (scope : Scope) : (Node.text path s).types scope = .ofList [.string, .color] := by
    rw [Node.types, if_pos hcolor]
  have hresolve (scope : Scope) :
      (Node.text path s).resolve scope (.singleton .color) = .ok (.color path c) := by
    rw [Node.resolve, htypes, h]
    rfl
  have hread : Node.read path (.text s) = .ok (.text path s) := by rw [Node.read]
  have hbuild (scope : Scope) :
      buildExpr scope path (.text s) (.singleton .color) = .ok (.color path c) := by
    rw [buildExpr, hread]
    change Node.widening scope _ _ _ = _
    rw [htypes]
    exact hresolve scope
  rw [build, hbuild, collect]

theorem emit_color (stage : Stage) {path : Path} {c : Rgba} {t : Glsl.Term}
    (h : Glsl.color c = .ok t) (r : Registry) :
    (emit stage (.color path c)).run.run r = (.ok t, r) := by
  unfold emit Emission.emit
  rw [h]
  rfl

/-- The tint of a feature where it is on, and else a translucent red. -/
private def featureOrRed : Value :=
  .list [.text "case", .list [.text "get", .text "on", .text "boolean"],
    .list [.text "get", .text "tint", .text "color"],
    .list [.text "color", .double (.finite 255), .double (.finite 0), .double (.finite 0),
      .list [.text "/", .double (.finite 51), .double (.finite 255)]]]

private def featureTint : Expr := .get ⟨"fill-color[2]"⟩ "tint" .color

private def mixedRed : Expr :=
  .call ⟨"fill-color[3]"⟩ .color
    [.number ⟨"fill-color[3][1]"⟩ (.finite 255), .number ⟨"fill-color[3][2]"⟩ (.finite 0),
      .number ⟨"fill-color[3][3]"⟩ (.finite 0),
      .call ⟨"fill-color[3][4]"⟩ .div [.number ⟨"fill-color[3][4][1]"⟩ (.finite 51),
        .number ⟨"fill-color[3][4][2]"⟩ (.finite 255)] .number] .color

private def featureOrRedExpr : Expr :=
  .cases ⟨"fill-color"⟩ [(.get ⟨"fill-color[1]"⟩ "on" .boolean, featureTint)] mixedRed .color

private def translucentRed : Rgba := .ofBytes 255 0 0 51

private def redLiteral : Expr := .color ⟨"fill-color"⟩ translucentRed

/-- A shader in which the tint is this red. -/
private def inRed : Meaning Rat where
  digits text :=
    [("0.0", 0), ("1.0", 1), ("51.0", 51), ("255.0", 255), ("256.0", 256),
      ("0.2", translucentRed.alpha.toRat)].lookup text
  power w _ := w
  function _ _ := none
  other
    | .name "a_tint" => some [65280, 51]
    | _ => none

private theorem inRed_reads :
    ∀ x ∈ [.finite 0, .finite 1, .finite 51, .finite 255, .finite 256, translucentRed.alpha],
      inRed.Reads x := by
  simp only [List.forall_mem_cons, List.not_mem_nil, false_imp_iff, implies_true, and_true]
  exact ⟨Meaning.reads_of_digits "0.0" (by decide +kernel) (by decide) rfl,
    Meaning.reads_of_digits "1.0" (by decide +kernel) (by decide) rfl,
    Meaning.reads_of_digits "51.0" (by decide +kernel) (by decide) rfl,
    Meaning.reads_of_digits "255.0" (by decide +kernel) (by decide) rfl,
    Meaning.reads_of_digits "256.0" (by decide +kernel) (by decide) rfl,
    Meaning.reads_of_digits "0.2" (by decide +kernel) (by decide) rfl⟩

private theorem inRed_counts : inRed.Counts :=
  ⟨inRed_reads _ (by simp), inRed_reads _ (by simp), inRed_reads _ (by simp)⟩

private theorem normal_translucentRed : Text.lower (Text.trim "#f003") = "#f003" := by
  decide +kernel

private theorem ofText_translucentRed : Color.ofText "#f003" = .ok translucentRed :=
  Color.ofText_eq_ok normal_translucentRed (by decide +kernel)

private theorem inRed_stores : inRed.Stores "a_tint" 255 0 0 51 := by
  have hcolor : Color.ofValue (.text "#f003") = .ok translucentRed := ofText_translucentRed
  have hencoded : encode .color {} (some (.text "#f003")) = translucentRed.pack.toList := by
    rw [encode, Option.getD_some, hcolor]
  refine ⟨.text "#f003", {}, hcolor, ?_⟩
  rw [hencoded]
  decide +kernel

/-- The operands of the operator have the channels of this red for their values. -/
private theorem inRed_channels (reads : mixedRed.ReadsBack .vertex {}) :
    (mixedRed.parts.map fun x => inRed.read (x.code .vertex {})) =
      [some [((255 : Nat) : Rat)], some [((0 : Nat) : Rat)], some [((0 : Nat) : Rat)],
        some [((51 : Nat) : Rat) / 255]] := by
  have hred : (Tree.literal (.finite 255)).value? inRed = some [((255 : Nat) : Rat)] :=
    inRed_counts.reads_channel.value?_eq
  have hzero : (Tree.literal (.finite 0)).value? inRed = some [((0 : Nat) : Rat)] :=
    (inRed_reads (.finite 0) (by simp)).value?_eq
  have halpha : (Tree.binary .div (.literal (.finite 51)) (.literal (.finite 255))).value? inRed =
      some [((51 : Nat) : Rat) / (255 : Nat)] :=
    Tree.value?_div (n := 255) (by decide) (inRed_reads (.finite 51) (by simp)).value?_eq
      inRed_counts.reads_channel
  refine (List.map_congr_left fun x hx => reads.read_part hx).trans ?_
  exact congrArg₂ _ hred (congrArg₂ _ hzero (congrArg₂ _ hzero (congrArg₂ _ halpha rfl)))

private theorem built_featureOrRed : featureOrRedExpr.Built fun _ => True := by
  have hbuild : Builder.build ⟨.empty, []⟩ ⟨"fill-color"⟩ featureOrRed (.singleton .color) =
      (some featureOrRedExpr, ⟨.empty, []⟩) := by cbv
  exact ⟨_, _, _, _, Or.inl ⟨_, hbuild⟩⟩

private theorem built_redLiteral : redLiteral.Built fun _ => True :=
  ⟨_, _, _, _, Or.inl ⟨_, Builder.build_colorText ⟨.empty, []⟩ ⟨"fill-color"⟩
    ofText_translucentRed⟩⟩

private theorem emit_redLiteral :
    ∃ t, (emit .vertex redLiteral).run.run {} = (.ok t, ({} : Registry)) := by
  have hok : (Glsl.color translucentRed).toBool = true := by decide +kernel
  cases hcolor : Glsl.color translucentRed with
  | ok t => exact ⟨t, emit_color .vertex hcolor {}⟩
  | error e =>
    rw [hcolor] at hok
    cases hok

/-- A translucent red that is written in three ways. -/
theorem color_roundTrips_translucentRed :
    Color.OfBytes translucentRed ∧ translucentRed.RoundTrips (· ≠ .nan) ∧
      inRed.read "unpackColor(a_tint)" = some [51 / 255, 0, 0, 51 / 255] ∧
      inRed.read "(vec4(vec3(255.0, 0.0, 0.0) / 255.0, 1.0) * (51.0 / 255.0))" =
        some [51 / 255, 0, 0, 51 / 255] ∧
      ∃ xs, inRed.read "vec4(0.2, 0.0, 0.0, 0.2)" = some xs ∧
        Color.Near xs [51 / 255, 0, 0, 51 / 255] := by
  obtain ⟨-, hdoubles, -, htexts, hemitted⟩ := color_roundTrips
  have hpainted : Color.painted 255 0 0 51 = [51 / 255, 0, 0, 51 / 255] := by decide +kernel
  have hnone : Color.componentsOf "#f003" = [] := by
    rw [Color.componentsOf, normal_translucentRed]
    decide +kernel
  obtain ⟨t, r, hrun, hcategories⟩ : ∃ t r,
      (emit .vertex featureOrRedExpr).run.run {} = (.ok t, r) ∧ r.categories = {} :=
    ⟨_, _, rfl, rfl⟩
  obtain ⟨-, hnodes⟩ := hemitted inRed built_featureOrRed (.fresh {}) hrun
  obtain ⟨-, reads⟩ := emit_readsBack built_featureOrRed (.fresh {}) hrun
  rw [hcategories] at hnodes reads
  have hnode {x : Expr} (hx : x ∈ featureOrRedExpr.parts) : x ∈ featureOrRedExpr.nodes :=
    Expr.mem_nodes.mpr (Or.inr ⟨x, hx, x.mem_nodes_self⟩)
  rw [← hpainted]
  refine ⟨htexts _ _ ofText_translucentRed hnone, hdoubles _ (by decide +kernel), ?_, ?_, ?_⟩
  · have hmem : featureTint ∈ featureOrRedExpr.nodes :=
      hnode (by simp [featureOrRedExpr, Expr.parts, Expr.operands])
    have hcode : featureTint.code .vertex {} = "unpackColor(a_tint)" := by decide +kernel
    rw [← hcode]
    exact hnodes featureTint hmem 255 0 0 51 (by decide) (by decide) (by decide) (by decide)
      inRed_stores fun h => absurd h (by decide)
  · have hmem : mixedRed ∈ featureOrRedExpr.nodes :=
      hnode (by simp [featureOrRedExpr, Expr.parts, Expr.operands])
    have hcode : mixedRed.code .vertex {} =
        "(vec4(vec3(255.0, 0.0, 0.0) / 255.0, 1.0) * (51.0 / 255.0))" := by decide +kernel
    rw [← hcode]
    exact hnodes mixedRed hmem 255 0 0 51 (by decide) (by decide) (by decide) (by decide)
      inRed_counts (Or.inl (inRed_channels (reads.node hmem)))
  · obtain ⟨t, hrun⟩ := emit_redLiteral
    obtain ⟨-, hnodes⟩ := hemitted inRed built_redLiteral (.fresh {}) hrun
    have hcode : redLiteral.code .vertex {} = "vec4(0.2, 0.0, 0.0, 0.2)" := by decide +kernel
    have hchannels : translucentRed.premultiplied =
        [translucentRed.alpha, .finite 0, .finite 0, translucentRed.alpha] := by decide +kernel
    rw [← hcode]
    refine hnodes redLiteral (Expr.mem_nodes_self _) 255 0 0 51 (by decide) (by decide) (by decide)
      (by decide) rfl ?_
    rw [hchannels]
    intro x hx
    exact inRed_reads x (by grind)

end ShaderStyle
