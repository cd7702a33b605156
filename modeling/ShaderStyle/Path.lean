/-! Places inside a style description, written like `symbol.size[2]`. -/
namespace ShaderStyle

structure Path where
  text : String
  deriving DecidableEq, Inhabited

namespace Path

/-- The place of a field of an object. -/
def key (p : Path) (name : String) : Path :=
  if p.text = "" then ⟨name⟩ else ⟨p.text ++ "." ++ name⟩

/-- The place of an element of an array. -/
def index (p : Path) (i : Int) : Path := ⟨p.text ++ "[" ++ toString i ++ "]"⟩

/-- The place of the enclosing value. -/
def parent (p : Path) : Path :=
  let step (c : Char) := c == '.' || c == '['
  ⟨String.ofList (p.text.toList.reverse.dropWhile (fun c => !step c)).tail.reverse⟩

/-- The root shows as `<style>`. -/
def shown (p : Path) : String := if p.text = "" then "<style>" else p.text

end Path

end ShaderStyle
