import ShaderStyle.OrderedMap
import ShaderStyle.Value.Basic

/-! Style descriptions: one expression for each visual channel. -/
namespace ShaderStyle

/-- Values by name: style variables, or the properties of a feature. -/
abbrev Bindings := OrderedMap String Value

/-- A quad drawn at the position of a feature. A null channel has its default. -/
structure Symbol where
  symbolType : String := ""
  size : Value := .null
  color : Value := .null
  opacity : Value := .null
  rotation : Value := .null
  rotateWithView : Bool := false
  offset : Value := .null
  textureCoord : Value := .null
  src : String := ""

structure Style where
  filter : Value := .null
  symbol : Option Symbol := none
  strokeColor : Value := .null
  strokeWidth : Value := .null
  fillColor : Value := .null
  vars : Option Bindings := none

namespace Style

def hasSymbol (s : Style) : Bool := s.symbol.isSome

def hasStroke (s : Style) : Bool := !s.strokeColor.isNull || !s.strokeWidth.isNull

def hasFill (s : Style) : Bool := !s.fillColor.isNull

end Style

/-- The outlines that a symbol can have. -/
inductive Shape where
  | square | image | circle | triangle
  deriving DecidableEq

def Shape.ofName? : String → Option Shape
  | "square" => some .square
  | "image" => some .image
  | "circle" => some .circle
  | "triangle" => some .triangle
  | _ => none

/-- The image of a symbol that shows one. -/
def Symbol.texture? (s : Symbol) : Option String :=
  if s.symbolType = "image" ∧ s.src ≠ "" then some s.src else none

end ShaderStyle
