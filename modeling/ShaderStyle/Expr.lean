import ShaderStyle.Color.Basic
import ShaderStyle.Double.Layout
import ShaderStyle.Operator
import ShaderStyle.Path
import ShaderStyle.Text.Quoted
import ShaderStyle.Value.Printer

/-! Style expressions whose types are resolved. -/
namespace ShaderStyle

/-- A typed expression; `source` is the place it was built from. -/
inductive Expr where
  | number (source : Path) (x : Double)
  | bool (source : Path) (b : Bool)
  /-- A text used as a category. -/
  | text (source : Path) (s : String)
  | color (source : Path) (c : Rgba)
  | array (source : Path) (xs : List Double)
  /-- The property of a feature. -/
  | get (source : Path) (name : String) (type : Ty)
  /-- A style variable. -/
  | var (source : Path) (name : String) (type : Ty)
  /-- A number that the renderer provides. -/
  | builtin (source : Path) (name : String)
  | call (source : Path) (op : Op) (args : List Expr) (type : Ty)
  /-- Outputs interpolated between the stops they are paired with. A spare output has no stop and
  takes no part. -/
  | interpolate (source : Path) (exponent : Double) (input : Expr) (stops : List (Expr × Expr))
      (spare : List Expr) (type : Ty)
  /-- The output of the first label that equals the input. A spare output has no label and takes
  no part. -/
  | select (source : Path) (input : Expr) (alternatives : List (Expr × Expr)) (spare : List Expr)
      (fallback : Expr) (type : Ty)
  /-- The output of the first condition that holds. -/
  | cases (source : Path) (alternatives : List (Expr × Expr)) (fallback : Expr) (type : Ty)
  /-- A number turned into a vector of equal components. -/
  | widen (x : Expr) (type : Ty)
  deriving Inhabited

namespace Expr

def source : Expr → Path
  | .number source _ | .bool source _ | .text source _ | .color source _ | .array source _ => source
  | .get source _ _ | .var source _ _ | .builtin source _ | .call source _ _ _ => source
  | .interpolate source _ _ _ _ _ | .select source _ _ _ _ _ | .cases source _ _ _ => source
  | .widen x _ => x.source

def type : Expr → Ty
  | .number _ _ | .builtin _ _ => .number
  | .bool _ _ => .boolean
  | .text _ _ => .string
  | .color _ _ => .color
  | .array _ xs => .array xs.length
  | .get _ _ t | .var _ _ t | .call _ _ _ t | .interpolate _ _ _ _ _ t => t
  | .select _ _ _ _ _ t | .cases _ _ _ t | .widen _ t => t

/-- A parenthesised list. -/
def listed (items : List String) : String := "(" ++ ", ".intercalate items ++ ")"

mutual

/-- A text close to the notation of styles. -/
def shown : Expr → String
  | .number _ x => x.general
  | .bool _ b => if b then "true" else "false"
  | .text _ s => Text.quote s
  | .color _ c => "color" ++ Value.bracketed (c.toList.map Double.general)
  | .array _ xs => Value.bracketed (xs.map Double.general)
  | .get _ name t => "get(" ++ Text.quote name ++ "):" ++ t.name
  | .var _ name t => "var(" ++ Text.quote name ++ "):" ++ t.name
  | .builtin _ name => name ++ "()"
  | .call _ op args _ => op.name ++ listed (shownList args)
  | .interpolate _ exponent input stops spare _ =>
    "interpolate[" ++ exponent.general ++ "](" ++ input.shown ++ ", " ++
      listed (shownFirst stops) ++ "->" ++ listed (shownSecond stops ++ shownList spare) ++ ")"
  | .select _ input alternatives spare fallback _ =>
    "match(" ++ input.shown ++ ", " ++ listed (shownFirst alternatives) ++ "->" ++
      listed (shownSecond alternatives ++ shownList spare) ++ ", " ++ fallback.shown ++ ")"
  | .cases _ alternatives fallback _ =>
    "case(" ++ listed (shownFirst alternatives) ++ "->" ++ listed (shownSecond alternatives) ++
      ", " ++ fallback.shown ++ ")"
  | .widen x t => t.name ++ "(" ++ x.shown ++ ")"

def shownList : List Expr → List String
  | [] => []
  | e :: es => e.shown :: shownList es

def shownFirst : List (Expr × Expr) → List String
  | [] => []
  | (e, _) :: es => e.shown :: shownFirst es

def shownSecond : List (Expr × Expr) → List String
  | [] => []
  | (_, e) :: es => e.shown :: shownSecond es

end

end Expr

end ShaderStyle
