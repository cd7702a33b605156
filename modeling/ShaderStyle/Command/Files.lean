/-! Files that are found by their paths. -/
namespace ShaderStyle.Command

/-- Why a file cannot be read. -/
inductive FileFault where
  | missing
  | notDirectory
  | directory
  | longName
  | invalidName
  | denied
  deriving DecidableEq

namespace FileFault

/-- What happened, which is a matter of reading for a directory and of opening for the rest. -/
def message (file : String) : FileFault → String
  | .missing => "open " ++ file ++ ": no such file or directory"
  | .notDirectory => "open " ++ file ++ ": not a directory"
  | .directory => "read " ++ file ++ ": is a directory"
  | .longName => "open " ++ file ++ ": file name too long"
  | .invalidName => "open " ++ file ++ ": invalid argument"
  | .denied => "open " ++ file ++ ": permission denied"

end FileFault

inductive FileTree where
  | file (text : String)
  | directory (entries : List (String × FileTree))
  deriving Inhabited

namespace FileTree

/-- The bytes of the longest name. -/
def nameLimit : Nat := 255

/-- The bytes of the longest path. -/
def pathLimit : Nat := 4095

/-- The entry of a directory. -/
def child (name : String) : FileTree → Except FileFault FileTree
  | .file _ => .error .notDirectory
  | .directory entries =>
    if nameLimit < name.utf8ByteSize then .error .longName
    else
      match entries.lookup name with
      | some t => .ok t
      | none => .error .missing

/-- Follows the names of a path from a place with the directories around it, the innermost first. -/
def follow : (around : List FileTree) → FileTree → List String → Except FileFault FileTree
  | _, t, [] => .ok t
  | _, .file _, _ :: _ => .error .notDirectory
  | around, t, name :: names =>
    if name = "" || name = "." then follow around t names
    else if name = ".." then
      match around with
      | [] => follow [] t names
      | outer :: around => follow around outer names
    else do follow (t :: around) (← t.child name) names

end FileTree

/-- The working directory and the directories around it, the innermost first. -/
structure FileSystem where
  working : FileTree
  around : List FileTree := []

namespace FileSystem

/-- Where a path starts: at the outermost directory if it starts with a slash. -/
def start (s : FileSystem) (path : String) : List FileTree × FileTree :=
  if path.toList.head? = some '/' then ([], s.around.getLastD s.working) else (s.around, s.working)

/-- Reads the file at a path. -/
def read (s : FileSystem) (path : String) : Except FileFault String := do
  if path.toList.contains '\x00' then throw .invalidName
  if path = "" then throw .missing
  if FileTree.pathLimit < path.utf8ByteSize then throw .longName
  let (around, t) := s.start path
  match ← FileTree.follow around t (path.splitOn "/") with
  | .file text => return text
  | .directory _ => throw .directory

end FileSystem

end ShaderStyle.Command
