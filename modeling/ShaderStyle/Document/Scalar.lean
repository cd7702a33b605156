import ShaderStyle.Document.Letter
import ShaderStyle.Double.Reading

/-! Scalars of a document: plain ones, which end where the structure goes on, and quoted ones. -/
namespace ShaderStyle.Scalar

open Letter

/-- What stands between two words of a scalar. -/
inductive Gap where
  /-- Blanks within a line, the last one first. -/
  | blanks (cs : List Char)
  /-- Line ends: the first one, unless it is escaped, and the others, the last one first. -/
  | lines (first : Option Char) (more : List Char)

namespace Gap

/-- A line feed for the line ends that count as one. -/
def unified (c : Char) : Char := if isFeed c then '\n' else c

def empty : Gap := .blanks []

def push (c : Char) : Gap → Gap
  | .blanks cs => if isBreak c then .lines (some (unified c)) [] else .blanks (c :: cs)
  | .lines first more =>
    if isBreak c then .lines first (unified c :: more) else .lines first more

def isEmpty : Gap → Bool
  | .blanks cs => cs.isEmpty
  | .lines _ _ => false

def isLines : Gap → Bool
  | .blanks _ => false
  | .lines _ _ => true

/-- How a gap reads, the last character first: a single line feed is a space, and of several the
first does not count. -/
def reading : Gap → List Char
  | .blanks cs => cs
  | .lines none more => more
  | .lines (some '\n') [] => [' ']
  | .lines (some '\n') more => more
  | .lines (some c) more => more ++ [c]

end Gap

/-- The characters with a meaning of their own in flow collections. -/
def flowIndicators : List Char := [',', '?', '[', ']', '\x7b', '\x7d']

/-- The characters that start no plain scalar, unless they are a dash, question mark or colon with
something behind it. -/
def indicators : List Char := [
  '-', '?', ':', ',', '[', ']', '\x7b', '\x7d', '#', '&', '*', '!', '|', '>', '\x27', '"', '%', '@',
  '\x60']

def startsPlain (flow : Bool) : List Letter → Bool
  | [] => false
  | l :: rest =>
    if isSpace l.char then false
    else if l.char == '-' then !isGap rest
    else if l.char == '?' || l.char == ':' then !flow && !isGap rest
    else !indicators.contains l.char

/-- A scalar and what is known of its end. -/
structure Found where
  text : String
  /-- Where its last word starts. What ends a scalar behind a gap counts as one. -/
  word : Place
  /-- Whether a line end stands behind it. -/
  endsLine : Bool := false
  /-- What follows it, and the gap behind it if it is plain. -/
  rest : List Letter

/-- Reads on in a plain scalar; `text` is what is read so far, the last character first. Lines that
continue it start at column `least` or later, outside of flow collections. -/
def plainFrom (flow : Bool) (least : Int) :
    (word : Place) → (text : List Char) → Gap → List Letter → Option Found
  | word, text, gap, [] => some ⟨String.ofList text.reverse, word, gap.isLines, []⟩
  | word, text, gap, l :: rest =>
    if isSpace l.char then
      if gap.isLines && l.char == '\t' && l.place.column < least then none
      else plainFrom flow least word text (gap.push l.char) rest
    else if gap.isLines && !flow && l.place.column < least then
      some ⟨String.ofList text.reverse, word, true, l :: rest⟩
    else
      let word := if gap.isEmpty then word else l.place
      if (gap.isLines && isMarker (l :: rest)) ||
          (!gap.isEmpty && l.char == '#') ||
          (l.char == ':' && isGap rest) ||
          (flow && flowIndicators.contains l.char) then
        some ⟨String.ofList text.reverse, word, gap.isLines, l :: rest⟩
      else plainFrom flow least word (l.char :: gap.reading ++ text) .empty rest

def plain? (flow : Bool) (least : Int) (start : Place) (input : List Letter) : Option Found :=
  if startsPlain flow input then plainFrom flow least start [] .empty input else none

/-- The character for the letter after a backslash. -/
def escapeLetter? : Char → Option Char
  | '0' => some '\x00'
  | 'a' => some '\x07'
  | 'b' => some '\x08'
  | 't' | '\t' => some '\t'
  | 'n' => some '\n'
  | 'v' => some '\x0b'
  | 'f' => some '\x0c'
  | 'r' => some '\r'
  | 'e' => some '\x1b'
  | ' ' => some ' '
  | '"' => some '"'
  | '\x27' => some '\x27'
  | '\\' => some '\\'
  | 'N' => some '\u0085'
  | '_' => some '\u00a0'
  | 'L' => some '\u2028'
  | 'P' => some '\u2029'
  | _ => none

/-- How many digits follow the letter of a numeric escape. -/
def escapeWidth? : Char → Option Nat
  | 'x' => some 2
  | 'u' => some 4
  | 'U' => some 8
  | _ => none

/-- The character with a code, which surrogates are not. -/
def ofCode? (n : Nat) : Option Char :=
  if n < 0xD800 || (0xE000 ≤ n && n ≤ 0x10FFFF) then some (Char.ofNat n) else none

/-- The character that an escape stands for and the length of the escape behind its backslash. -/
def escape? : List Letter → Option (Char × Nat)
  | [] => none
  | l :: rest =>
    match escapeWidth? l.char with
    | some width => do
      let digits := (rest.take width).map Letter.char
      if digits.length = width && digits.all (Numeral.isDigit 16) then
        return (← ofCode? (Numeral.digitsValue 16 digits), width + 1)
      else none
    | none => (escapeLetter? l.char).map fun c => (c, 1)

/-- Reads on in a quoted scalar, `pass` letters of which are read already. -/
def quotedFrom (mark : Char) :
    (pass : Nat) → (word : Place) → (text : List Char) → Gap → List Letter → Option Found
  | _, _, _, _, [] => none
  | pass + 1, word, text, gap, _ :: rest => quotedFrom mark pass word text gap rest
  | 0, word, text, gap, l :: rest =>
    if isSpace l.char then quotedFrom mark 0 word text (gap.push l.char) rest
    else if isMarker (l :: rest) then none
    else
      let word := if gap.isEmpty then word else l.place
      let text := gap.reading ++ text
      if l.char == mark then
        if mark == '\x27' && startsWith ['\x27'] rest then
          quotedFrom mark 1 word ('\x27' :: text) .empty rest
        else some { text := String.ofList text.reverse, word, rest }
      else if mark == '"' && l.char == '\\' then
        match rest with
        | [] => none
        | next :: _ =>
          if isBreak next.char then quotedFrom mark 1 word text (.lines none []) rest
          else
            match escape? rest with
            | some (c, length) => quotedFrom mark length word (c :: text) .empty rest
            | none => none
      else quotedFrom mark 0 word (l.char :: text) .empty rest

/-- A quoted scalar that starts with its quote at a place. The first word starts behind it. -/
def quoted? (mark : Char) (start : Place) (input : List Letter) : Option Found :=
  quotedFrom mark 0 start.next [] .empty (input.drop 1)

end ShaderStyle.Scalar
