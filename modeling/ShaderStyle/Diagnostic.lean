import ShaderStyle.Path

/-! Errors with their place in a style, and the texts they show as. -/
namespace ShaderStyle

/-- What an error is about. -/
inductive Problem where
  /-- An operand has a type that is not accepted, or one name has two types. -/
  | typing
  /-- The style is malformed: unknown operators, missing operands. -/
  | structural
  /-- A name, a color or a category cannot be resolved. -/
  | resolution
  deriving DecidableEq

/-- An error. Where a trace of its origin is known, the trace follows its detailed text. -/
inductive Diagnostic where
  | plain (message : String) (traced : Bool)
  | located (path : Path) (problem : Option Problem) (inner : Diagnostic)
  /-- A defect of the compiler. Its text always goes on with a trace. -/
  | internal (inner : Diagnostic)
  deriving DecidableEq

namespace Diagnostic

def internalHeader : String :=
  "glstyle internal error. This is a bug in glstyle. Please report it. Error:\n"

/-- The first line shown for a place without an error. -/
def missingText : String := "recovered from panic when building error message: <nil>:"

/-- The text up to the trace. -/
def text : Diagnostic → String
  | .plain message _ => message
  | .located path _ inner => path.shown ++ ": " ++ inner.text
  | .internal inner => internalHeader ++ inner.text

def isInternal : Diagnostic → Bool
  | .internal _ => true
  | _ => false

/-- Whether the detailed text goes on with a trace. -/
def isTraced : Diagnostic → Bool
  | .plain _ traced => traced
  | .located _ _ inner => inner.isTraced
  | .internal _ => true

/-- Whether the error, or one that it encloses, is about the given problem. -/
def isAbout (p : Problem) : Diagnostic → Bool
  | .plain _ _ => false
  | .located _ problem inner => problem == some p || inner.isAbout p
  | .internal _ => false

/-- The problem that classifies the error. -/
def problem? (d : Diagnostic) : Option Problem :=
  [Problem.typing, .structural, .resolution].find? fun p => d.isAbout p

def path? : Diagnostic → Option Path
  | .located path _ _ => some path
  | _ => none

/-- Joins texts up to and including the first one that is followed by a trace. -/
def joined (separator : String) : List Diagnostic → String
  | [] => ""
  | [d] => d.text
  | d :: ds => if d.isInternal then d.text else d.text ++ separator ++ joined separator ds

/-- Texts on lines of their own; the one that a trace follows is the last. -/
def lines (traced : Diagnostic → Bool) : List Diagnostic → String
  | [] => ""
  | d :: ds => if traced d then d.text else d.text ++ "\n" ++ lines traced ds

end Diagnostic

end ShaderStyle
