import ShaderStyle.Command.Arguments
import ShaderStyle.Document.Decoding
import ShaderStyle.Report

/-! The commands: compiling a style file into a report, and packing a color. -/
namespace ShaderStyle.Command

/-- What a command finds around it. -/
structure Environment where
  /-- Reads the file at a path. -/
  read : String → Except FileFault String
  /-- The log level to use when none is asked for; may be empty. -/
  logLevel : String := ""

structure CompileOptions where
  styleFile : String
  /-- Variables with their values, as `name=value`. -/
  assignments : List String := []
  output : String := "text"
  /-- No file if empty. -/
  featureFile : String := ""

inductive Action where
  | help
  /-- Shows the same as `help`, but only when the log level is a known one. -/
  | explain
  | version
  | compile (options : CompileOptions)
  | pack (color : String)

/-- What a command line asks for. -/
structure Invocation where
  action : Action
  logLevel : String := ""

namespace Invocation

def helpFlag : Flag := ⟨"help", false, some 'h'⟩

def sharedFlags : List Flag := [⟨"log-level", true, none⟩, helpFlag]

def compileFlags : List Flag :=
  sharedFlags ++ [⟨"var", true, none⟩, ⟨"output", true, none⟩, ⟨"features", true, none⟩]

def completionFlags : List Flag := sharedFlags ++ [⟨"no-descriptions", false, none⟩]

def rootFlags : List Flag := sharedFlags ++ [⟨"version", false, some 'v'⟩]

/-- A text with a line feed for each carriage return and line feed. -/
def unifyLineEnds : List Char → List Char
  | '\r' :: '\n' :: cs => '\n' :: unifyLineEnds cs
  | c :: cs => c :: unifyLineEnds cs
  | [] => []

/-- The assignments among the values of an option: an empty one alone is none. -/
def assignmentsOf (values : List String) : List String :=
  if values = [""] then []
  else values.map fun s => String.ofList (unifyLineEnds s.toList)

/-- An invocation of a command with these options, unless they ask for help. -/
def ofFlags (flags : List Flag) (words : List String)
    (action : Arguments → Except Failure Action) : Except Failure Invocation := do
  let a ← Arguments.parse flags words
  if a.isOn "help" then return ⟨.help, ""⟩
  return ⟨← action a, (a.last? "log-level").getD ""⟩

/-- An invocation of a command that takes one word. -/
def ofWord (flags : List Flag) (words : List String) (action : Arguments → String → Action) :
    Except Failure Invocation :=
  ofFlags flags words fun a =>
    match a.words with
    | [word] => .ok (action a word)
    | words => .error (.wordCount words.length)

/-- The shells that a completion script is known for. -/
def shells : List String := ["bash", "zsh", "fish", "powershell"]

/-- An invocation of the command for completion, which does something only for a shell that it
knows. -/
def ofCompletion (words : List String) : Except Failure Invocation :=
  let unknown := ofFlags sharedFlags words fun _ => .ok .help
  match Arguments.splitCommand words with
  | none => unknown
  | some (shell, rest) =>
    if shells.contains shell then
      ofFlags completionFlags rest fun a =>
        match a.words with
        | [] => .ok .explain
        | word :: _ => .error (.unexpectedWord word ("completion " ++ shell))
    else unknown

def parse (words : List String) : Except Failure Invocation :=
  match Arguments.splitCommand words with
  | some ("compile", words) =>
    ofWord compileFlags words fun a word => .compile {
      styleFile := word
      assignments := assignmentsOf (a.all "var")
      output := (a.last? "output").getD "text"
      featureFile := (a.last? "features").getD "" }
  | some ("pack", words) => ofWord sharedFlags words fun _ word => .pack word
  | some ("help", words) => ofFlags sharedFlags words fun _ => .ok .explain
  | some ("completion", words) => ofCompletion words
  | some (name, _) => .error (.unknownCommand name)
  | none => do
    let a ← Arguments.parse rootFlags words
    return ⟨if !a.isOn "help" && a.isOn "version" then .version else .help, ""⟩

/-- The files that an invocation reads. -/
def files (i : Invocation) : List String :=
  match i.action with
  | .compile o => if o.featureFile = "" then [o.styleFile] else [o.styleFile, o.featureFile]
  | _ => []

end Invocation

/-- What a command writes. -/
structure Output where
  text : String
  log : List LogEntry := []

def usage : String :=
  "Compile styles into GLSL expressions\n\n" ++
  "  glstyle compile <style file> [--var name=value] [--output text|json] [--features file]\n" ++
  "  glstyle pack <color>\n"

def version : String := "glstyle version dev\n"

/-- The level of the messages to log. -/
def levelFor (env : Environment) (i : Invocation) : Except Failure LogLevel :=
  let name :=
    if i.logLevel ≠ "" then i.logLevel
    else if env.logLevel ≠ "" then env.logLevel
    else "warn"
  match LogLevel.parse? name with
  | some level => .ok level
  | none => .error (.unknownLogLevel name)

/-- Sets a variable from its assignment. -/
def assign (vars : Bindings) (assignment : String) : Except Failure Bindings :=
  let (name, value) := Arguments.splitValue assignment.toList
  match value with
  | none => .error (.malformedAssignment assignment)
  | some value =>
    if name = "" then .error (.malformedAssignment assignment)
    else
      match (Document.parse? value).bind Document.value? with
      | some v => .ok (vars.insert name v)
      | none => .error (.malformedVariable name)

/-- The style with variables set anew. -/
def assignAll (s : Style) (assignments : List String) : Except Failure Style := do
  if assignments.isEmpty then return s
  let vars ← assignments.foldlM assign (s.vars.getD .empty)
  return { s with vars := some vars }

def readFile (env : Environment) (purpose file : String) : Except Failure String :=
  (env.read file).mapError (.unreadable purpose file)

def readStyle (env : Environment) (file : String) : Except Failure Style := do
  match Style.load? (← readFile env "style" file) with
  | some s => return s
  | none => throw (.malformedStyle file)

def readFeatures (env : Environment) (file : String) : Except Failure (List Bindings) := do
  if file = "" then return []
  match (Document.parse? (← readFile env "features" file)).bind Document.features? with
  | some fs => return fs
  | none => throw (.malformedFeatures file)

/-- The text of a report in a format. -/
def format (p : Report) (output : String) : Except Failure String :=
  match output with
  | "json" => p.json.mapError .unwritable
  | "text" => .ok p.text
  | name => .error (.unknownFormat name)

def runCompile (env : Environment) (level : LogLevel) (o : CompileOptions) :
    Except Failure Output := do
  let style ← readStyle env o.styleFile
  let style ← assignAll style o.assignments
  let features ← readFeatures env o.featureFile
  let (outcome, log) := compile style none
  match outcome with
  | .error issues => throw (.style issues)
  | .ok r =>
    let text ← format (.ofResult r features) o.output
    return { text, log := if level = .debug then log else [] }

/-- A color from a sequence of numbers, or from the word as it stands. -/
def packText (word : String) : Except Failure String :=
  let value := match (Document.parse? word).bind Document.items? with
    | some items => Value.list items
    | none => .text word
  match Color.ofValue value with
  | .ok c => .ok (" ".intercalate (c.pack.toList.map Double.general) ++ "\n")
  | .error e => .error (.color e)

def Invocation.run (env : Environment) (i : Invocation) : Except Failure Output :=
  match i.action with
  | .help => .ok { text := usage }
  | .version => .ok { text := version }
  | .explain => do
    let _ ← levelFor env i
    return { text := usage }
  | .compile o => do runCompile env (← levelFor env i) o
  | .pack color => do
    let _ ← levelFor env i
    return { text := ← packText color }

/-- Runs a command line. -/
def run (env : Environment) (words : List String) : Except Failure Output := do
  (← Invocation.parse words).run env

end ShaderStyle.Command
