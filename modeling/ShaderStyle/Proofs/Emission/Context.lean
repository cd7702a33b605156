import ShaderStyle.Compile
import ShaderStyle.Proofs.Emission.Spelling

/-! Texts that a compilation puts code into. Each of them applies to the whole of the code. -/
namespace ShaderStyle

open Glsl (Tree Derives Spells Spelled topLevel)

namespace Shape

/-- The coordinates of a fragment, from minus one to one. -/
private def centered : Tree :=
  .binary .sub (.binary .mul (.name "v_quadCoord") (.number "2.")) (.number "1.")

/-- The angle of a fragment. -/
private def angle : Tree := .call "atan" [.field centered "x", .field centered "y"]

private def sector : Tree := .number "2.094395102"

/-- The nesting of the opacity inside of a shape, by the visible size. -/
def opacity (size : Tree) : Shape → Tree
  | .square | .image => .number "1.0"
  | .circle =>
    let fromCenter := Tree.binary .sub (.name "v_quadCoord") (.number ".5")
    .binary .sub (.number "1.0") (.call "smoothstep" [
      .binary .sub (.number "1.") (.binary .div (.number "4.") size), .number "1.",
      .binary .mul (.call "dot" [fromCenter, fromCenter]) (.number "4.")])
  | .triangle =>
    let turned := Tree.binary .mul (.call "floor" [
      .binary .add (.number ".5") (.binary .div angle sector)]) sector
    .binary .sub (.number "1.0") (.call "smoothstep" [
      .binary .sub (.number ".5") (.binary .div (.number "3.") size), .number ".5",
      .binary .mul (.call "cos" [.binary .sub turned angle]) (.call "length" [centered])])

end Shape

namespace Glsl.Derives

theorem top {ts : List Token} {x : Tree} {level : Nat} (h : Derives level ts x)
    (hle : level ≤ topLevel) : Derives topLevel ts x := h.of_le hle (Nat.le_refl _)

theorem ident {name : String} (h : name.toList[1]? = some '_') :
    Derives 0 [.ident name] (.name name) := by
  have hword := Derives.word name
  rwa [Tree.word_eq_name h] at hword

theorem call_one (f : String) {ts : List Token} {x : Tree} (h : Derives topLevel ts x) :
    Derives 0 (.ident f :: .lparen :: ts ++ [.rparen]) (.call f [x]) := by
  have hargs : ∀ a ∈ [(ts, x)], Derives topLevel a.1 a.2 := by simpa using h
  simpa using Derives.call f hargs

theorem call_two (f : String) {ts us : List Token} {x y : Tree} (hx : Derives topLevel ts x)
    (hy : Derives topLevel us y) :
    Derives 0 (.ident f :: .lparen :: (ts ++ .comma :: us) ++ [.rparen]) (.call f [x, y]) := by
  have hargs : ∀ a ∈ [(ts, x), (us, y)], Derives topLevel a.1 a.2 := by simpa using ⟨hx, hy⟩
  simpa using Derives.call f hargs

theorem call_three (f : String) {ts us vs : List Token} {x y z : Tree}
    (hx : Derives topLevel ts x) (hy : Derives topLevel us y) (hz : Derives topLevel vs z) :
    Derives 0 (.ident f :: .lparen :: (ts ++ .comma :: (us ++ .comma :: vs)) ++ [.rparen])
      (.call f [x, y, z]) := by
  have hargs : ∀ a ∈ [(ts, x), (us, y), (vs, z)], Derives topLevel a.1 a.2 := by
    simpa using ⟨hx, hy, hz⟩
  simpa using Derives.call f hargs

theorem operands (op : BinaryOp) {ts us : List Token} {x y : Tree} {level level' : Nat}
    (hx : Derives level ts x) (hy : Derives level' us y) (hl : level ≤ op.level)
    (hr : level' ≤ op.level - 1) : Derives op.level (ts ++ .op op :: us) (.binary op x y) := by
  have htop : op.level ≤ topLevel := by cases op <;> decide
  exact .binary op (hx.of_le hl htop) (hy.of_le hr (by omega))

end Glsl.Derives

namespace Shape

private def circleHead : List Glsl.Token := [
  .lparen, .number "1.0", .op .sub, .ident "smoothstep", .lparen, .number "1.", .op .sub,
  .number "4.", .op .div]

private def circleTail : List Glsl.Token := [
  .comma, .number "1.", .comma, .ident "dot", .lparen, .ident "v_quadCoord", .op .sub,
  .number ".5", .comma, .ident "v_quadCoord", .op .sub, .number ".5", .rparen, .op .mul,
  .number "4.", .rparen, .rparen]

private theorem derives_circle {ts : List Glsl.Token} {x : Tree} (h : Derives 0 ts x) :
    Derives 0 (circleHead ++ ts ++ circleTail) (opacity x .circle) := by
  have hedge := Derives.operands .sub (.number "1.")
    (Derives.operands .div (.number "4.") h (by decide) (by decide)) (by decide) (by decide)
  have hcoord : Derives 0 [.ident "v_quadCoord"] (.name "v_quadCoord") := .ident (by decide)
  have hoffset := Derives.operands .sub hcoord (.number ".5") (by decide) (by decide)
  have hdot := Derives.call_two "dot" (hoffset.top (by decide)) (hoffset.top (by decide))
  have hsquare := Derives.operands .mul hdot (.number "4.") (by decide) (by decide)
  have hstep := Derives.call_three "smoothstep" (hedge.top (by decide))
    ((Derives.number "1.").top (by decide)) (hsquare.top (by decide))
  have hall := Derives.operands .sub (.number "1.0") hstep (by decide) (by decide)
  have hparen := Derives.paren (hall.top (by decide))
  simpa [circleHead, circleTail, opacity] using hparen

private def centeredTokens : List Glsl.Token := [
  .lparen, .ident "v_quadCoord", .op .mul, .number "2.", .op .sub, .number "1.", .rparen]

private def angleTokens : List Glsl.Token :=
  .lparen :: .ident "atan" :: .lparen :: (centeredTokens ++ .dot :: .ident "x" :: .comma ::
    (centeredTokens ++ [.dot, .ident "y", .rparen, .rparen]))

private theorem derives_centered : Derives 0 centeredTokens centered := by
  have hcoord : Derives 0 [.ident "v_quadCoord"] (.name "v_quadCoord") := .ident (by decide)
  have hdouble := Derives.operands .mul hcoord (.number "2.") (by decide) (by decide)
  have hall := Derives.operands .sub hdouble (.number "1.") (by decide) (by decide)
  exact Derives.paren (hall.top (by decide))

private theorem derives_angle : Derives 0 angleTokens angle := by
  have hx := Derives.field "x" derives_centered
  have hy := Derives.field "y" derives_centered
  have hall := Derives.call_two "atan" (hx.top (by decide)) (hy.top (by decide))
  exact Derives.paren (hall.top (by decide))

private def centeredText : String := "(v_quadCoord*2.-1.)"

private def angleText : String := "(atan(" ++ centeredText ++ ".x," ++ centeredText ++ ".y))"

/-- What follows the size in the opacity of a triangle. -/
private def triangleText : String :=
  ",.5,cos(floor(.5+" ++ angleText ++ "/2.094395102)*2.094395102-" ++ angleText ++ ")*length(" ++
    centeredText ++ ")))"

private def triangleHead : List Glsl.Token := [
  .lparen, .number "1.0", .op .sub, .ident "smoothstep", .lparen, .number ".5", .op .sub,
  .number "3.", .op .div]

private def triangleTail : List Glsl.Token :=
  .comma :: .number ".5" :: .comma :: .ident "cos" :: .lparen :: .ident "floor" :: .lparen ::
    .number ".5" :: .op .add :: (angleTokens ++ .op .div :: .number "2.094395102" :: .rparen ::
    .op .mul :: .number "2.094395102" :: .op .sub :: (angleTokens ++ .rparen :: .op .mul ::
    .ident "length" :: .lparen :: (centeredTokens ++ [.rparen, .rparen, .rparen])))

private theorem derives_triangle {ts : List Glsl.Token} {x : Tree} (h : Derives 0 ts x) :
    Derives 0 (triangleHead ++ ts ++ triangleTail) (opacity x .triangle) := by
  have hedge := Derives.operands .sub (.number ".5")
    (Derives.operands .div (.number "3.") h (by decide) (by decide)) (by decide) (by decide)
  have hpart := Derives.operands .div derives_angle (.number "2.094395102") (by decide) (by decide)
  have hsum := Derives.operands .add (.number ".5") hpart (by decide) (by decide)
  have hturned := Derives.operands .mul (Derives.call_one "floor" (hsum.top (by decide)))
    (.number "2.094395102") (by decide) (by decide)
  have hrest := Derives.operands .sub hturned derives_angle (by decide) (by decide)
  have hcos := Derives.call_one "cos" (hrest.top (by decide))
  have hlength := Derives.call_one "length" (derives_centered.top (by decide))
  have hproduct := Derives.operands .mul hcos hlength (by decide) (by decide)
  have hstep := Derives.call_three "smoothstep" (hedge.top (by decide))
    ((Derives.number ".5").top (by decide)) (hproduct.top (by decide))
  have hall := Derives.operands .sub (.number "1.0") hstep (by decide) (by decide)
  have hparen := Derives.paren (hall.top (by decide))
  simpa [triangleHead, triangleTail, opacity, sector] using hparen

private theorem append_regroup (before size a b c d e f : String) :
    before ++ size ++ a ++ b ++ c ++ b ++ d ++ e ++ f =
      before ++ size ++ (a ++ b ++ c ++ b ++ d ++ e ++ f) := by
  simp only [String.append_assoc]

private theorem triangle_text (size : String) :
    Compilation.shapeFilter size .triangle = "(1.0-smoothstep(.5-3./" ++ size ++ triangleText :=
  append_regroup "(1.0-smoothstep(.5-3./" size ",.5,cos(floor(.5+" angleText
    "/2.094395102)*2.094395102-" ")*length(" centeredText ")))"

end Shape

namespace Compilation

/-- Code between a division sign and a comma. -/
private theorem lex_around {before size after : String} {x ts y : List Glsl.Token}
    (hfirst : size.toList.head? = some 'v')
    (hopen : Glsl.Token.openLexeme [] before.toList = ['/'])
    (hnext : after.toList.head?.any Glsl.Token.isSeparator = true)
    (hbefore : Glsl.Token.lex before = some x) (hsize : Glsl.Token.lex size = some ts)
    (hafter : Glsl.Token.lex after = some y) :
    Glsl.Token.lex (before ++ size ++ after) = some (x ++ ts ++ y) := by
  have hapart : Glsl.Token.Apart before.toList size.toList := by
    obtain ⟨rest, hrest⟩ := List.head?_eq_some_iff.mp hfirst
    rw [hrest]
    right
    rw [hopen]
    rfl
  have hfront := Glsl.Token.lex_append hapart hbefore hsize
  exact Glsl.Token.lex_append (Glsl.Token.apart_of_head hnext) hfront hafter

/-- The opacity of a shape, as a factor. -/
theorem spells_shapeFilter {size : String} {x : Tree} (h : Spells 0 size x)
    (hfirst : size.toList.head? = some 'v') (shape : Shape) :
    Spells 0 (shapeFilter size shape) (shape.opacity x) := by
  obtain ⟨ts, hl, hd⟩ := h
  have hone : Glsl.Token.IsDecimal "1.0" :=
    ⟨['1'], ['0'], by simp, by simp, by simp, by simp, by decide⟩
  cases shape with
  | square => exact Spells.decimal hone
  | image => exact Spells.decimal hone
  | circle =>
    have hbefore : Glsl.Token.lex "(1.0-smoothstep(1.-4./" = some Shape.circleHead := by
      decide +kernel
    have hafter : Glsl.Token.lex ",1.,dot(v_quadCoord-.5,v_quadCoord-.5)*4.))" =
        some Shape.circleTail := by decide +kernel
    have hopen : Glsl.Token.openLexeme [] "(1.0-smoothstep(1.-4./".toList = ['/'] := by
      decide +kernel
    exact ⟨_, lex_around hfirst hopen (by decide) hbefore hl hafter, Shape.derives_circle hd⟩
  | triangle =>
    have hbefore : Glsl.Token.lex "(1.0-smoothstep(.5-3./" = some Shape.triangleHead := by
      decide +kernel
    have hafter : Glsl.Token.lex Shape.triangleText = some Shape.triangleTail := by decide +kernel
    have hopen : Glsl.Token.openLexeme [] "(1.0-smoothstep(.5-3./".toList = ['/'] := by
      decide +kernel
    have hnext : Shape.triangleText.toList.head?.any Glsl.Token.isSeparator = true := by
      decide +kernel
    rw [Shape.triangle_text]
    exact ⟨_, lex_around hfirst hopen hnext hbefore hl hafter, Shape.derives_triangle hd⟩

theorem spells_vec2 {text : String} {x : Tree} (h : Spells topLevel text x) :
    Spells 0 (vec2Text text) (.call "vec2" [x]) := by
  have hcall := Spells.call (f := "vec2") (by decide) (.cons h .nil)
  rw [String.intercalate_singleton] at hcall
  exact hcall

/-- The first component of a size. -/
theorem spells_width {text : String} {x : Tree} (h : Spells topLevel text x) :
    Spells 0 (vec2Text text ++ ".x") (.field (.call "vec2" [x]) "x") :=
  Spells.field "x" (by decide) (spells_vec2 h)

theorem spells_symbolColor {color opacity filter : String} {c o f : Tree}
    (hc : Spells 0 color c) (ho : Spells 1 opacity o) (hf : Spells 1 filter f) :
    Spells 0 (symbolColorText color opacity filter) (.call "vec4" [.field c "rgb",
      .binary .mul (.binary .mul (.field c "a") o) f]) := by
  have hrgb := Spells.field "rgb" (by decide) hc
  have ha := Spells.field "a" (by decide) hc
  have hscaled := Spells.binary .mul (ha.of_le (by decide) (by decide)) ho
  have halpha := Spells.binary .mul hscaled hf
  have hcall := Spells.call (f := "vec4") (by decide)
    (.cons (hrgb.of_le (by decide) (by decide)) (.cons (halpha.of_le (by decide) (by decide)) .nil))
  rw [String.intercalate_cons_cons, String.intercalate_singleton] at hcall
  have htext : symbolColorText color opacity filter = "vec4" ++ "(" ++ (color ++ ("." ++ "rgb") ++
      ", " ++ (color ++ ("." ++ "a") ++ (" " ++ Glsl.BinaryOp.mul.symbol ++ " ") ++ opacity ++
        (" " ++ Glsl.BinaryOp.mul.symbol ++ " ") ++ filter)) ++ ")" := by
    unfold symbolColorText
    simp only [Glsl.BinaryOp.symbol, String.reduceAppend, String.append_assoc]
  rw [htext]
  exact hcall

end Compilation

end ShaderStyle
