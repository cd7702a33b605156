import ShaderStyle.Document.Scalar
import ShaderStyle.Document.Source
import ShaderStyle.Document.Token

/-! Tokens of a document. Whether a node is a key shows only at the colon behind it, so a few tokens
are held back. -/
namespace ShaderStyle

open Letter

/-- The last node of a level that becomes a key if a colon follows. -/
structure Candidate where
  /-- Whether a colon can still follow. -/
  isOpen : Bool := false
  /-- Whether it must. -/
  required : Bool := false
  /-- The number of its first token. -/
  token : Nat := 0
  place : Place := {}

namespace Candidate

/-- How many characters there may be from the start of a key to its colon. -/
def reach : Nat := 1024

/-- Whether a colon at a place is on the same line and not too far away. -/
def reaches (k : Candidate) (p : Place) : Bool :=
  k.place.line == p.line && p.index ≤ k.place.index + reach

end Candidate

/-- The state of cutting a text into tokens. -/
structure Lexer where
  input : List Letter
  /-- The place behind the input. -/
  finish : Place
  /-- Whether the text goes on behind the input, with what cannot be read. -/
  isCut : Bool := false
  /-- The index up to which a byte order mark at the start of the text is in view. -/
  markReach : Nat := 0
  /-- The tokens that are found and not taken yet. -/
  queue : List Token := []
  /-- How many tokens are taken. -/
  taken : Nat := 0
  /-- The columns of the block collections around, the innermost first. -/
  blocks : List Nat := []
  /-- Whether a key may start here. -/
  keyAllowed : Bool := true
  /-- A candidate for each flow collection around, the innermost first, and one for the blocks. -/
  candidates : List Candidate := [{}]
  /-- The tokens that wait for a colon, with the levels of their candidates. -/
  waiting : List (Nat × Nat) := []

namespace Lexer

/-- How deep collections can be nested. -/
def depthLimit : Nat := 10000

def place (x : Lexer) : Place :=
  match x.input with
  | l :: _ => l.place
  | [] => x.finish

/-- How many flow collections are open. -/
def level (x : Lexer) : Nat := x.candidates.length - 1

def inFlow (x : Lexer) : Bool := 0 < x.level

/-- The column of the innermost block collection. -/
def indent (x : Lexer) : Int :=
  match x.blocks with
  | c :: _ => c
  | [] => -1

/-- The number of the token that is found next. -/
def nextToken (x : Lexer) : Nat := x.taken + x.queue.length

def push (t : Token) (x : Lexer) : Lexer := { x with queue := x.queue ++ [t] }

/-- Puts a token in front of the one with a number, or at the end if that one is taken already. -/
def insert (token : Nat) (t : Token) (x : Lexer) : Lexer :=
  if token < x.taken then x.push t
  else
    let i := token - x.taken
    { x with queue := x.queue.take i ++ t :: x.queue.drop i }

def pass (n : Nat) (x : Lexer) : Lexer := { x with input := x.input.drop n }

def allowKey (b : Bool) (x : Lexer) : Lexer := { x with keyAllowed := b }

/-! ## Blanks and comments -/

/-- How far ahead a comment is looked for. -/
def commentReach : Nat := 511

/-- Whether the next thing on this line or a later one is a comment before an index. -/
def commentFollows (bound : Nat) : List Letter → Bool
  | [] => false
  | l :: rest =>
    if l.char == '#' then l.place.index ≤ bound
    else (isBlank l.char || l.char == '\n' || l.char == '\r') && commentFollows bound rest

/-- Passes over a comment up to its line end, and over the comments on the next lines. `inside`
tells a comment from the blanks between two. -/
def skipComments : (inside : Bool) → List Letter → List Letter
  | _, [] => []
  | false, l :: rest => skipComments (l.char == '#') rest
  | true, l :: rest =>
    if !isBreak l.char then skipComments true rest
    else if (l.char == '\n' || l.char == '\r') &&
        commentFollows (l.place.index + commentReach) rest then
      skipComments false rest
    else l :: rest

/-- Passes over blanks and comments, up to a line end. Where a key may start, a tab is no blank. -/
def skipBlanks (x : Lexer) : Lexer :=
  let isTabBlank := x.inFlow || !x.keyAllowed
  let rest := x.input.dropWhile fun l => l.char == ' ' || (l.char == '\t' && isTabBlank)
  match rest with
  | l :: more => { x with input := if l.char == '#' then skipComments true more else rest }
  | [] => { x with input := [] }

/-- As long as a byte order mark at the start of the text is in view, the first character of each
line is taken for it. A line end that is taken for it does not end the line, unless it is two
characters, of which the second does. -/
def skipMark (x : Lexer) : Lexer :=
  match x.input with
  | [] => x
  | l :: rest =>
    let next := { x with input := rest }.place.index
    if l.place.column ≠ 0 || x.markReach ≤ l.place.index then x
    else if !isBreak l.char then { x with input := rest }
    else if next = l.place.index + 1 then { x with input := shiftLine rest }
    else x

/-- How many characters are in view where a token or a word of a scalar starts. -/
def view : Nat := 4

/-- A byte order mark at the start of the text is lost when the view goes beyond its reach. -/
def lookFrom (p : Place) (x : Lexer) : Lexer :=
  if x.markReach < p.index + view then { x with markReach := 0 } else x

/-- Passes over blanks, comments and line ends. A new line allows a key outside of flow
collections. -/
def skipLines : (fuel : Nat) → Lexer → Lexer
  | 0, x => x
  | fuel + 1, x =>
    let x := x.skipMark.skipBlanks
    match x.input with
    | l :: rest =>
      if isBreak l.char then
        skipLines fuel { x with input := rest, keyAllowed := x.keyAllowed || !x.inFlow }
      else x
    | [] => x

/-- Passes over what stands between tokens. Each line has a character at least, its end. -/
def skip (x : Lexer) : Lexer := x.skipLines (x.finish.index + 1)

/-- Passes over a comment on the line of the last token. -/
def skipLineComment (x : Lexer) : Lexer :=
  match x.input.dropWhile fun l => isBlank l.char with
  | l :: rest =>
    if l.char == '#' && l.place.index ≤ x.place.index + commentReach then
      { x with input := rest.dropWhile fun l => !isBreak l.char }
    else x
  | [] => x

/-! ## Block collections -/

/-- Ends the block collections that are further in than a column. -/
def unroll (column : Int) (x : Lexer) : Lexer :=
  if x.inFlow then x
  else
    let ended := x.blocks.takeWhile fun (c : Nat) => column < c
    { x with
      blocks := x.blocks.drop ended.length
      queue := x.queue ++ ended.map fun _ => .blockEnd }

/-- Starts a block collection in front of a token, if its column is further in than the one
around. -/
def roll (c : Collection) (token column : Nat) (x : Lexer) : Option Lexer :=
  if x.inFlow || column ≤ x.indent then some x
  else if depthLimit ≤ x.blocks.length then none
  else some { x.insert token (.blockStart c) with blocks := column :: x.blocks }

/-! ## Keys -/

/-- Gives up the candidate of the current level. -/
def dropCandidate (x : Lexer) : Option Lexer :=
  match x.candidates with
  | [] => some x
  | k :: outer =>
    if !k.isOpen then some x
    else if k.required then none
    else some { x with
      candidates := { k with isOpen := false } :: outer
      waiting := x.waiting.filter fun w => w.1 != k.token }

/-- Makes the next token a candidate, if a key may start here. In the column of a block mapping it
must become a key. -/
def addCandidate (x : Lexer) : Option Lexer :=
  if !x.keyAllowed then some x
  else do
    let required := !x.inFlow && x.indent == x.place.column
    let x ← x.dropCandidate
    let k : Candidate := ⟨true, required, x.nextToken, x.place⟩
    return { x with
      candidates := k :: x.candidates.drop 1
      waiting := (k.token, x.level) :: x.waiting }

/-- Whether a colon here makes a key of the candidate of a level. A candidate that can no longer
become a key is given up. -/
def testCandidate (level : Nat) (x : Lexer) : Option (Bool × Lexer) :=
  let i := x.level - level
  match x.candidates[i]? with
  | none => some (false, x)
  | some k =>
    if !k.isOpen then some (false, x)
    else if k.reaches x.place then some (true, x)
    else if k.required then none
    else some (false, { x with candidates := x.candidates.set i { k with isOpen := false } })

/-! ## Tokens -/

/-- The end of the text, which is on a line of its own. -/
def readFinish (x : Lexer) : Option Lexer := do
  let p := x.finish
  let x := { x with finish := if p.column = 0 then p else ⟨p.index, p.line + 1, 0⟩ }
  let x ← (x.unroll (-1)).dropCandidate
  return (x.allowKey false).push .finish

/-- A line between documents. -/
def readMarker (t : Token) (x : Lexer) : Option Lexer := do
  let x ← (x.unroll (-1)).dropCandidate
  return ((x.allowKey false).pass 3).push t

def readFlowStart (c : Collection) (x : Lexer) : Option Lexer := do
  let token := x.nextToken
  let x ← x.addCandidate
  let k : Candidate := { token, place := x.place }
  if depthLimit ≤ x.level then none
  else
    let x := { x with candidates := k :: x.candidates }.allowKey true
    return (x.pass 1).push (.flowStart c)

def readFlowEnd (c : Collection) (x : Lexer) : Option Lexer := do
  let x ← x.dropCandidate
  let x := match x.candidates with
    | k :: next :: outer => { x with
        candidates := next :: outer
        waiting := x.waiting.filter fun w => w.1 != k.token }
    | _ => x
  return ((x.allowKey false).pass 1).push (.flowEnd c)

def readComma (x : Lexer) : Option Lexer := do
  return (((← x.dropCandidate).allowKey true).pass 1).push .comma

/-- A collection starts at a mark in block context, if one may. -/
def rollAtMark (c : Collection) (x : Lexer) : Option Lexer :=
  if x.inFlow then some x
  else if x.keyAllowed then x.roll c x.nextToken x.place.column
  else none

def readDash (x : Lexer) : Option Lexer := do
  let x ← (← x.rollAtMark .sequence).dropCandidate
  return ((x.allowKey true).pass 1).push .dash

def readKey (x : Lexer) : Option Lexer := do
  let x ← (← x.rollAtMark .mapping).dropCandidate
  return ((x.allowKey !x.inFlow).pass 1).push .key

/-- A colon: the candidate of the level becomes a key, or the value has none. -/
def readValue (x : Lexer) : Option Lexer := do
  let (isKey, x) ← x.testCandidate x.level
  match x.candidates with
  | [] => none
  | k :: outer =>
    if isKey then
      let x ← (x.insert k.token .key).roll .mapping k.token k.place.column
      let x := { x with
        candidates := { k with isOpen := false } :: outer
        waiting := x.waiting.filter fun w => w.1 != k.token }
      return ((x.allowKey false).pass 1).push .value
    else
      let x ← x.rollAtMark .mapping
      return ((x.allowKey !x.inFlow).pass 1).push .value

def readQuoted (mark : Char) (x : Lexer) : Option Lexer := do
  let x ← x.addCandidate
  let s ← Scalar.quoted? mark x.place x.input
  return ({ x with input := s.rest }.lookFrom s.word |>.allowKey false).push (.scalar s.text true)

/-- A plain scalar. A key may start behind it only on a new line. -/
def readPlain (x : Lexer) : Option Lexer := do
  let x ← x.addCandidate
  let s ← Scalar.plain? x.inFlow (x.indent + 1) x.place x.input
  let x := { x with input := s.rest }.lookFrom s.word
  let x := (x.allowKey s.endsLine).push (.scalar s.text false)
  return if s.endsLine then x else x.skipLineComment

/-- The token that starts here. -/
def readToken (x : Lexer) : Option Lexer :=
  match x.input with
  | [] => x.readFinish
  | input@(l :: rest) =>
    if isMarker input then x.readMarker (if l.char == '-' then .documentStart else .documentEnd)
    else if l.char == '-' && isGap rest then x.readDash
    else if (l.char == '?' || l.char == ':') && (x.inFlow || isGap rest) then
      (if l.char == '?' then x.readKey else x.readValue).map skipLineComment
    else
      match l.char with
      | '[' => (x.readFlowStart .sequence).map skipLineComment
      | ']' => (x.readFlowEnd .sequence).map skipLineComment
      | '\x7b' => (x.readFlowStart .mapping).map skipLineComment
      | '\x7d' => (x.readFlowEnd .mapping).map skipLineComment
      | ',' => x.readComma.map skipLineComment
      | '"' | '\x27' => (x.readQuoted l.char).map skipLineComment
      | _ => x.readPlain

/-- Whether the input ends within so many characters, though the text goes on. -/
def lacks (n : Nat) (x : Lexer) : Bool := x.isCut && (x.input.drop (n - 1)).isEmpty

/-- Finds the next token, and perhaps others in front of it. -/
def advance (x : Lexer) : Option Lexer :=
  let x := x.skip
  let x := x.unroll x.place.column
  if x.lacks view then none
  else (x.lookFrom x.place).readToken.filter fun x => !x.lacks 1

/-- How many tokens are found before one is taken. -/
def lookahead : Nat := 3

/-- Finds tokens until the first one can be taken: it does not wait for a colon. -/
def fill : (fuel : Nat) → Lexer → Option Lexer
  | 0, _ => none
  | fuel + 1, x =>
    if x.queue.length < lookahead then x.advance.bind (fill fuel)
    else
      match x.waiting.lookup x.taken with
      | none => some x
      | some level => do
        let (waits, x) ← x.testCandidate level
        if waits then x.advance.bind (fill fuel) else return x

/-- The next token, which stays. -/
def peek (x : Lexer) : Option (Token × Lexer) := do
  let x ← x.fill (x.finish.index + lookahead + 1)
  return (← x.queue.head?, x)

/-- Takes the next token. -/
def take (x : Lexer) : Lexer := { x with queue := x.queue.drop 1, taken := x.taken + 1 }

def ofText (s : String) : Lexer :=
  let t := Source.ofText s
  { input := t.letters, finish := t.finish, isCut := t.isCut, markReach := t.markReach }

end Lexer

end ShaderStyle
