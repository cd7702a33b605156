import Mathlib.Algebra.Order.Field.Basic
import Mathlib.Tactic.Linarith
import Mathlib.Tactic.Ring
import ShaderStyle.Proofs.Emission.Spelling
import ShaderStyle.Proofs.Glsl.Arithmetic

/-! The value of the helper that unpacks a color, and of vectors that stand for colors. -/
namespace ShaderStyle.Glsl

/-- The channel in the upper eight bits of a number, scaled to one. -/
def upperTerm (x : Term) : Term :=
  .chain .div [.call "floor" [.chain .div [x, .number (.finite 256)]], .number (.finite 255)]

/-- The channel in the lower eight bits of a number, scaled to one. -/
def lowerTerm (x : Term) : Term :=
  .chain .div [.call "mod" [x, .number (.finite 256)], .number (.finite 255)]

/-- What the helper returns. -/
def unpackedTerm (redGreen blueAlpha : Term) : Term :=
  .chain .mul [
    .call "vec4" [upperTerm redGreen, lowerTerm redGreen, upperTerm blueAlpha,
      .number (.finite 1)],
    .paren (lowerTerm blueAlpha)]

/-- What the helper returns, with the blanks around the components of the vector. -/
def unpackedText (start separator stop : String) (redGreen blueAlpha : Term) : String :=
  "vec4(" ++ start ++
    separator.intercalate [(upperTerm redGreen).text, (lowerTerm redGreen).text,
      (upperTerm blueAlpha).text, "1.0"] ++
    stop ++ ") * (" ++ (lowerTerm blueAlpha).text ++ ")"

/-- The helper in the shader has each component on a line of its own. -/
theorem unpackFunction_eq : unpackFunction =
    "vec4 unpackColor(vec2 packedColor) \x7b\n  return " ++
      unpackedText "\n    " ",\n    " "\n  " (.name "packedColor[0]") (.name "packedColor[1]") ++
      ";\n\x7d" := by
  decide +kernel

theorem text_unpackedTerm (t u : Term) :
    (unpackedTerm t u).text = unpackedText "" ", " "" t u := by
  have hone : (Term.number (.finite 1)).text = "1.0" := by decide +kernel
  have hstart : "vec4" ++ "(" = "vec4(" ++ "" := by decide +kernel
  have hstop : ")" ++ (" " ++ BinaryOp.mul.symbol ++ " ") ++ "(" = ") * (" := by decide +kernel
  rw [unpackedTerm, Term.text_chain, List.map_cons, List.map_singleton,
    String.intercalate_cons_cons, String.intercalate_singleton, Term.text_call, hstart]
  simp only [List.map_cons, List.map_nil, hone]
  rw [unpackedText, Term.text]
  generalize "vec4(" ++ "" ++ ", ".intercalate _ = components
  rw [String.append_empty, ← hstop]
  simp only [String.append_assoc]

namespace Tree

def upper (x : Tree) : Tree :=
  .binary .div (.call "floor" [.binary .div x (.literal (.finite 256))]) (.literal (.finite 255))

def lower (x : Tree) : Tree :=
  .binary .div (.call "mod" [x, .literal (.finite 256)]) (.literal (.finite 255))

def unpackedFrom (redGreen blueAlpha : Tree) : Tree :=
  .binary .mul
    (.call "vec4" [upper redGreen, lower redGreen, upper blueAlpha, .literal (.finite 1)])
    (lower blueAlpha)

end Tree

section Words

variable {K : Type} [Field K] [LinearOrder K] [IsStrictOrderedRing K] [FloorRing K]
variable {n k : Nat}

theorem floor_word (hk : k < 256) : ⌊((n * 256 + k : Nat) : K) / 256⌋ = n := by
  have hlt : (k : K) < 256 := by exact_mod_cast hk
  rw [Int.floor_eq_iff, Int.cast_natCast, le_div_iff₀ (by norm_num), div_lt_iff₀ (by norm_num)]
  push_cast
  constructor <;> linarith [Nat.cast_nonneg (α := K) k]

theorem modulo_word (hk : k < 256) : modulo ((n * 256 + k : Nat) : K) 256 = k := by
  rw [modulo, floor_word hk]
  push_cast
  ring

/-- What was put together is taken apart. -/
theorem unpacked_words {r g b a : Nat} (hg : g < 256) (ha : a < 256) :
    unpacked ((r * 256 + g : Nat) : K) ((b * 256 + a : Nat) : K) =
      [(r : K) / 255 * (a / 255), g / 255 * (a / 255), b / 255 * (a / 255), a / 255] := by
  unfold unpacked
  dsimp only
  rw [floor_word hg, floor_word ha, modulo_word hg, modulo_word ha]
  simp only [Int.cast_natCast]

end Words

section Spelling

variable {t u : Term} {x y : Tree}

theorem spells_upper (h : Spells 1 t.text x) : Spells 2 (upperTerm t).text (.upper x) := by
  have hquotient := Spells.chain_terms .div (by simp)
    (.cons h (.cons (Spells.number_literal 256 _ (by decide) (by decide)) .nil))
  have hfloor : Spelled .number _ _ := Spelled.call_terms (f := "floor") (by decide)
    (.cons (hquotient.of_le (by decide) (by decide)) .nil)
  exact Spells.chain_terms .div (by simp) (.cons (hfloor.spells 1 (by decide) (by decide))
    (.cons (Spells.number_literal 255 _ (by decide) (by decide)) .nil))

theorem spells_lower (h : Spells 1 t.text x) : Spells 2 (lowerTerm t).text (.lower x) := by
  have hrest : Spelled .number _ _ := Spelled.call_terms (f := "mod") (by decide)
    (.cons (h.of_le (by decide) (by decide))
      (.cons (Spells.number_literal 256 _ (by decide) (by decide)) .nil))
  exact Spells.chain_terms .div (by simp) (.cons (hrest.spells 1 (by decide) (by decide))
    (.cons (Spells.number_literal 255 _ (by decide) (by decide)) .nil))

theorem spells_unpacked (ht : Spells 1 t.text x) (hu : Spells 1 u.text y) :
    Spells 2 (unpackedTerm t u).text (.unpackedFrom x y) := by
  have hvector : Spelled .color _ _ := Spelled.call_terms (f := "vec4") (by decide)
    (.cons ((spells_upper ht).of_le (by decide) (by decide))
      (.cons ((spells_lower ht).of_le (by decide) (by decide))
        (.cons ((spells_upper hu).of_le (by decide) (by decide))
          (.cons (Spells.number_literal 1 topLevel (by decide) (by decide)) .nil))))
  have halpha : Spells 0 (Term.paren (lowerTerm u)).text (.lower y) :=
    Spells.paren (spells_lower hu) (by decide)
  exact Spells.chain_terms .mul (by simp) (.cons (hvector.spells 1 (by decide) (by decide))
    (.cons (halpha.of_le (by decide) (by decide)) .nil))

end Spelling

variable {K : Type} [Field K] [LinearOrder K] [FloorRing K]

/-- Whether the literals that colors are computed with stand for their numbers. -/
structure Meaning.Counts (m : Meaning K) : Prop where
  reads_one : m.Reads (.finite 1)
  reads_channel : m.Reads (.finite 255)
  reads_word : m.Reads (.finite 256)

section Value

variable {m : Meaning K} {x y : Tree} {p q r g b a : K}

theorem Meaning.Reads.value?_eq {n : Nat} (h : m.Reads (.finite n)) :
    (Tree.literal (.finite n)).value? m = some [(n : K)] := by
  rw [h, Double.toRat, Rat.cast_natCast]

variable [CharZero K]

theorem Tree.value?_div {n : Nat} {xs : List K} (hn : n ≠ 0) (hx : x.value? m = some xs)
    (h : m.Reads (.finite n)) :
    (Tree.binary .div x (.literal (.finite n))).value? m = some (xs.map (· / (n : K))) := by
  have hne : (0 : K) ∉ [(n : K)] := by simpa [eq_comm] using hn
  rw [value?_binary .div rfl hx h.value?_eq, BinaryOp.value?, if_neg hne]
  cases xs with
  | nil => rfl
  | cons _ rest => cases rest <;> rfl

theorem Tree.value?_upper (h : m.Counts) (hx : x.value? m = some [p]) :
    (upper x).value? m = some [(⌊p / 256⌋ : K) / 255] := by
  have hquotient := value?_div (n := 256) (by decide) hx h.reads_word
  have hfloor := value?_call "floor" (values?_cons hquotient values?_nil)
  have hscaled := value?_div (n := 255) (by decide) (hfloor.trans rfl) h.reads_channel
  exact hscaled.trans (by simp)

theorem Tree.value?_lower (h : m.Counts) (hx : x.value? m = some [p]) :
    (lower x).value? m = some [modulo p 256 / 255] := by
  have hrest := value?_call "mod"
    (values?_cons hx (values?_cons (h.reads_word.value?_eq (n := 256)) values?_nil))
  have hmod : m.call? "mod" [[p], [((256 : Nat) : K)]] = some [modulo p 256] :=
    if_neg (by norm_num)
  have hscaled := value?_div (n := 255) (by decide) (hrest.trans hmod) h.reads_channel
  exact hscaled.trans (by simp)

/-- What the helper returns is what is taken for its value. -/
theorem Tree.value?_unpackedFrom (h : m.Counts) (hx : x.value? m = some [p])
    (hy : y.value? m = some [q]) : (unpackedFrom x y).value? m = some (Glsl.unpacked p q) := by
  have hone := h.reads_one.value?_eq (n := 1)
  have hvector := value?_call "vec4" (values?_cons (value?_upper h hx)
    (values?_cons (value?_lower h hx) (values?_cons (value?_upper h hy)
      (values?_cons hone values?_nil))))
  have hproduct := value?_binary .mul rfl (hvector.trans rfl) (value?_lower h hy)
  exact hproduct.trans (by simp [BinaryOp.value?, componentwise, Glsl.unpacked])

theorem Meaning.Counts.read_unpacked {t u : Term} (h : m.Counts) (ht : Spells 1 t.text x)
    (hu : Spells 1 u.text y) (hx : x.value? m = some [p]) (hy : y.value? m = some [q]) :
    m.read (unpackedText "" ", " "" t u) = some (Glsl.unpacked p q) := by
  rw [← text_unpackedTerm, Meaning.read, (spells_unpacked ht hu).parse_eq (by decide),
    Option.bind_some, Tree.value?_unpackedFrom h hx hy]

/-- Channels from 0 to 255 make a premultiplied color. -/
theorem Tree.value?_color (h : m.Counts) {R G B : Tree} (hr : R.value? m = some [r])
    (hg : G.value? m = some [g]) (hb : B.value? m = some [b]) :
    (Op.tree .color [R, G, B]).value? m = some [r / 255, g / 255, b / 255, 1] := by
  have hvector := value?_call "vec3"
    (values?_cons hr (values?_cons hg (values?_cons hb values?_nil)))
  have hscaled := value?_div (n := 255) (by decide) (hvector.trans rfl) h.reads_channel
  have hcolor := value?_call "vec4" (values?_cons hscaled
    (values?_cons (h.reads_one.value?_eq (n := 1)) values?_nil))
  exact hcolor.trans (by simp [Meaning.call?, vector?])

theorem Tree.value?_colorAlpha (h : m.Counts) {R G B A : Tree} (hr : R.value? m = some [r])
    (hg : G.value? m = some [g]) (hb : B.value? m = some [b]) (ha : A.value? m = some [a]) :
    (Op.tree .color [R, G, B, A]).value? m =
      some [r / 255 * a, g / 255 * a, b / 255 * a, a] := by
  have hsolid := value?_color h hr hg hb
  have hproduct := value?_binary .mul rfl hsolid ha
  exact hproduct.trans (by simp [BinaryOp.value?, componentwise])

end Value

end ShaderStyle.Glsl
