import ShaderStyle.Command.Run

/-! The command line program: it reads the files that a command names and prints what comes out. -/
namespace ShaderStyle.Command

/-- What a failure to read a file means. -/
def faultOf : IO.Error → FileFault
  | .inappropriateType none _ _ => .directory
  | .inappropriateType (some _) _ _ => .notDirectory
  | .invalidArgument _ code _ => if code = 22 then .invalidName else .longName
  | .permissionDenied _ _ _ => .denied
  | _ => .missing

/-- The text of a file. -/
def readText (file : String) : IO (Except FileFault String) := do
  try
    return .ok (← IO.FS.readFile file)
  catch e => return .error (faultOf e)

/-- Runs a command line with the files that it names. -/
def runProgram (words : List String) : IO (Except Failure Output) := do
  match Invocation.parse words with
  | .error e => return .error e
  | .ok i =>
    let files ← i.files.mapM fun file => do return (file, ← readText file)
    let level ← IO.getEnv "GLSTYLE_LOG_LEVEL"
    return i.run ⟨fun file => (files.lookup file).getD (.error .missing), level.getD ""⟩

end ShaderStyle.Command

open ShaderStyle.Command

def main (words : List String) : IO UInt32 := do
  match ← runProgram words with
  | .ok output =>
    for entry in output.log do
      IO.eprintln entry.text
    IO.print output.text
    return 0
  | .error e =>
    IO.eprintln e.message
    return 1
