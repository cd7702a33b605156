import ShaderStyle.Text.Blank
import ShaderStyle.Text.Lowercase
import ShaderStyle.Text.Quoted

/-! Levels of log messages. -/
namespace ShaderStyle

inductive LogLevel where
  | debug | info | warn | error
  deriving DecidableEq

namespace LogLevel

def name : LogLevel → String
  | .debug => "DEBUG"
  | .info => "INFO"
  | .warn => "WARN"
  | .error => "ERROR"

/-- Reads a level in any case, with blanks around it. No text means `info`. -/
def parse? (s : String) : Option LogLevel :=
  match Text.lower (Text.trim s) with
  | "debug" => some .debug
  | "info" | "" => some .info
  | "warn" | "warning" => some .warn
  | "error" => some .error
  | _ => none

/-- The message for a text that names no level. -/
def unknownMessage (s : String) : String :=
  "unknown log level " ++ Text.quote s ++ ": want debug, info, warn or error"

end LogLevel

end ShaderStyle
