/-! Texts as characters that know their places. -/
namespace ShaderStyle

/-- A place in a text: how many characters stand before it, how many lines, and how many characters
on its own line. -/
structure Place where
  index : Nat := 0
  line : Nat := 0
  column : Nat := 0

namespace Place

/-- The place behind a character that ends no line. -/
def next (p : Place) : Place := { p with index := p.index + 1, column := p.column + 1 }

/-- The place behind a line end of so many characters. -/
def nextLine (p : Place) (width : Nat) : Place := ⟨p.index + width, p.line + 1, 0⟩

end Place

/-- A character with its place. -/
structure Letter where
  char : Char
  place : Place

namespace Letter

/-- The line ends that count as a line feed. -/
def isFeed (c : Char) : Bool := c == '\n' || c == '\r' || c.toNat == 0x85

def isBreak (c : Char) : Bool := isFeed c || c.toNat == 0x2028 || c.toNat == 0x2029

def isBlank (c : Char) : Bool := c == ' ' || c == '\t'

def isSpace (c : Char) : Bool := isBlank c || isBreak c

def isByteOrderMark (c : Char) : Bool := c.toNat == 0xFEFF

/-- The characters that a document may hold. -/
def allowedRanges : List (Nat × Nat) := [
  (0x9, 0xA), (0xD, 0xD), (0x20, 0x7E), (0x85, 0x85), (0xA0, 0xD7FF), (0xE000, 0xFFFD),
  (0x10000, 0x10FFFF)]

def isAllowed (c : Char) : Bool :=
  allowedRanges.any fun (first, last) => first ≤ c.toNat && c.toNat ≤ last

/-- The letters of a text from a place on, and the place behind them. A carriage return and a line
feed are one line end. -/
def placed (p : Place) : List Char → List Letter × Place
  | [] => ([], p)
  | '\r' :: '\n' :: cs =>
    let (letters, finish) := placed (p.nextLine 2) cs
    (⟨'\n', p⟩ :: letters, finish)
  | c :: cs =>
    let (letters, finish) := placed (if isBreak c then p.nextLine 1 else p.next) cs
    (⟨c, p⟩ :: letters, finish)

/-- The letters with those up to the first line end one column further in. -/
def shiftLine : List Letter → List Letter
  | [] => []
  | l :: rest =>
    let moved := { l with place.column := l.place.column + 1 }
    moved :: if isBreak l.char then rest else shiftLine rest

/-- Whether a text ends here or goes on with a space. -/
def isGap : List Letter → Bool
  | [] => true
  | l :: _ => isSpace l.char

def startsWith (cs : List Char) (input : List Letter) : Bool :=
  (input.take cs.length).map Letter.char == cs

/-- Whether the input starts with one of the lines that separate documents. -/
def isMarker : List Letter → Bool
  | [] => false
  | input@(l :: _) =>
    l.place.column == 0 && (startsWith ['-', '-', '-'] input || startsWith ['.', '.', '.'] input) &&
      isGap (input.drop 3)

end Letter

end ShaderStyle
