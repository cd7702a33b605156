/-! Documents: what a style or feature file says, before its parts have types. -/
namespace ShaderStyle

inductive Document where
  /-- A text; an unquoted one can also stand for a number, a truth value or nothing. -/
  | scalar (text : String) (quoted : Bool)
  | sequence (items : List Document)
  | mapping (entries : List (Document × Document))

namespace Document

/-- What stands where nothing is written. -/
def missing : Document := .scalar "" false

end Document

end ShaderStyle
