import ShaderStyle.Issue
import ShaderStyle.LogLevel
import ShaderStyle.Color.Reading
import ShaderStyle.Command.Files
import ShaderStyle.Text.Distance

/-! The parts of a command line: a command, options with their values, and other words. -/
namespace ShaderStyle.Command

/-- What can be wrong with a command or its files. -/
inductive Failure where
  | unknownCommand (name : String)
  | unexpectedWord (word command : String)
  | badOption (written : String)
  | unknownOption (name : String)
  | missingOptionValue (name : String)
  | unknownLetter (letters : String)
  | malformedSwitch (value names : String)
  | wordCount (n : Nat)
  | unknownLogLevel (name : String)
  | unreadable (purpose file : String) (fault : FileFault)
  | malformedStyle (file : String)
  | malformedFeatures (file : String)
  | malformedAssignment (assignment : String)
  | malformedVariable (name : String)
  | unknownFormat (name : String)
  | unwritable (x : Double)
  | color (e : ColorError)
  | style (issues : List Issue)

/-- The commands, in the order in which they are suggested. -/
def names : List String := ["compile", "pack", "completion"]

/-- The commands that a misspelt one may stand for. -/
def suggestions (name : String) : List String :=
  let typed := Text.lower name
  names.filter fun known => Text.distance typed known ≤ 2 || typed.toList.isPrefixOf known.toList

/-- The character whose code is the first byte of a text. -/
def firstByte (s : String) : Char := Char.ofNat (s.toUTF8.toList.headD 0).toNat

/-- The start of a text in quotes. Letters are told apart by a byte, so one that takes several is
shown by the first byte of its first byte's character. -/
def quotedStart (s : String) : String :=
  let c := firstByte (firstByte s).toString
  if c = '\x27' then "'\\''"
  else if c = '"' then "'\"'"
  else "'" ++ Text.quoteChar c ++ "'"

namespace Failure

/-- Why a document cannot be read. -/
def malformed : String := "yaml: malformed document"

def message : Failure → String
  | .unknownCommand name =>
    let hints := suggestions name
    "unknown command " ++ Text.quote name ++ " for \"glstyle\"" ++
      if hints.isEmpty then ""
      else "\n\nDid you mean this?\n" ++ String.join (hints.map fun hint => "\t" ++ hint ++ "\n")
  | .unexpectedWord word command =>
    "unknown command " ++ Text.quote word ++ " for " ++ Text.quote ("glstyle " ++ command)
  | .badOption written => "bad flag syntax: " ++ written
  | .unknownOption name => "unknown flag: --" ++ name
  | .missingOptionValue name => "flag needs an argument: --" ++ name
  | .unknownLetter letters =>
    "unknown shorthand flag: " ++ quotedStart letters ++ " in -" ++ letters
  | .malformedSwitch value names =>
    "invalid argument " ++ Text.quote value ++ " for " ++ Text.quote names ++
      " flag: strconv.ParseBool: parsing " ++ Text.quote value ++ ": invalid syntax"
  | .wordCount n => "accepts 1 arg(s), received " ++ toString n
  | .unknownLogLevel name => LogLevel.unknownMessage name
  | .unreadable purpose file fault => "cannot read " ++ purpose ++ ": " ++ fault.message file
  | .malformedStyle file => file ++ ": cannot decode style: " ++ malformed
  | .malformedFeatures file => "cannot decode features in " ++ file ++ ": " ++ malformed
  | .malformedAssignment assignment =>
    "invalid variable assignment " ++ Text.quote assignment ++ ": want name=value"
  | .malformedVariable name =>
    "invalid value for variable " ++ Text.quote name ++ ": " ++ malformed
  | .unknownFormat name =>
    "unknown output format " ++ Text.quote name ++ ": want text or json"
  | .unwritable x => "json: unsupported value: " ++ x.general
  | .color e => e.message
  | .style issues => Diagnostic.joined "; " (issues.map Issue.diagnostic)

end Failure

/-- An option of a command. -/
structure Flag where
  name : String
  /-- Whether a value follows it. Otherwise it is a switch. -/
  valued : Bool := true
  letter : Option Char := none

namespace Flag

/-- The ways to write an option. -/
def names (f : Flag) : String :=
  match f.letter with
  | some c => "-" ++ c.toString ++ ", --" ++ f.name
  | none => "--" ++ f.name

/-- The ways to turn a switch on or off. -/
def switch? (value : String) : Option Bool :=
  if ["1", "t", "T", "TRUE", "true", "True"].contains value then some true
  else if ["0", "f", "F", "FALSE", "false", "False"].contains value then some false
  else none

/-- The value of an option as it is kept. -/
def setting (f : Flag) (value : String) : Except Failure String :=
  if f.valued then .ok value
  else
    match switch? value with
    | some true => .ok "true"
    | some false => .ok "false"
    | none => .error (.malformedSwitch value f.names)

end Flag

/-- Options in the order in which they are given, and the other words. -/
structure Arguments where
  options : List (String × String) := []
  words : List String := []

namespace Arguments

/-- The value that an option has at last. -/
def last? (a : Arguments) (name : String) : Option String :=
  (a.options.reverse.find? fun o => o.1 == name).map Prod.snd

def all (a : Arguments) (name : String) : List String :=
  (a.options.filter fun o => o.1 == name).map Prod.snd

/-- Whether a switch is on at last. -/
def isOn (a : Arguments) (name : String) : Bool := a.last? name == some "true"

def addOption (name value : String) (a : Arguments) : Arguments :=
  { a with options := (name, value) :: a.options }

def addWord (word : String) (a : Arguments) : Arguments := { a with words := word :: a.words }

/-- Switches that are letters behind one dash. An equals sign and what follows it set the last one,
and letters that start with `test.` are passed over. -/
def letters (flags : List Flag) : List Char → Except Failure (List (String × String))
  | [] => .ok []
  | c :: cs =>
    if ['t', 'e', 's', 't', '.'].isPrefixOf (c :: cs) then .ok []
    else
      match flags.find? fun f => f.letter == some c with
      | none => .error (.unknownLetter (String.ofList (c :: cs)))
      | some f =>
        match cs with
        | '=' :: d :: value => do return [(f.name, ← f.setting (String.ofList (d :: value)))]
        | _ => (letters flags cs).map ((f.name, "true") :: ·)

/-- A word split at its first equals sign. -/
def splitValue (cs : List Char) : String × Option String :=
  let name := String.ofList (cs.takeWhile (· != '='))
  match cs.dropWhile (· != '=') with
  | [] => (name, none)
  | _ :: value => (name, some (String.ofList value))

/-- Takes a command line apart. Options may stand anywhere before a double dash. -/
def parse (flags : List Flag) : List String → Except Failure Arguments
  | [] => .ok {}
  | word :: rest =>
    match word.toList with
    | '-' :: '-' :: [] => .ok { words := rest }
    | '-' :: '-' :: c :: cs =>
      if c = '-' || c = '=' then .error (.badOption word)
      else
        let (name, value) := splitValue (c :: cs)
        match flags.find? fun f => f.name == name with
        | none => .error (.unknownOption name)
        | some f =>
          match value with
          | some value => do
            let value ← f.setting value
            return addOption name value (← parse flags rest)
          | none =>
            if f.valued then
              match rest with
              | value :: rest => (parse flags rest).map (addOption name value)
              | [] => .error (.missingOptionValue name)
            else (parse flags rest).map (addOption name "true")
    | '-' :: c :: cs => do
      let found ← letters flags (c :: cs)
      let a ← parse flags rest
      return found.foldr (fun (name, value) => addOption name value) a
    | _ => (parse flags rest).map (addWord word)

/-- Whether the word behind this one belongs to it as long as the options are not known. -/
def mayTakeValue (word : String) : Bool :=
  !word.toList.contains '=' &&
    match word.toList with
    | '-' :: '-' :: _ => true
    | ['-', c] => c.toNat < 0x80
    | _ => false

/-- Finds the name of the command and takes it out of the words. -/
def splitCommand : List String → Option (String × List String)
  | [] => none
  | word :: rest =>
    if word = "--" then none
    else if mayTakeValue word then
      match rest with
      | [] | [_] => none
      | value :: rest => (splitCommand rest).map fun (name, words) => (name, word :: value :: words)
    else if word ≠ "" && word.toList.head? != some '-' then some (word, rest)
    else (splitCommand rest).map fun (name, words) => (name, word :: words)

end Arguments

end ShaderStyle.Command
