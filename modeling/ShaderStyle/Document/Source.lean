import ShaderStyle.Document.Letter

/-! Texts as a document reads them: block by block, up to the first block with a character that no
document may hold. -/
namespace ShaderStyle

open Letter

/-- What is read of a text. -/
structure Source where
  letters : List Letter
  /-- The place behind the letters. -/
  finish : Place
  /-- Whether the text goes on with a block that cannot be read. -/
  isCut : Bool
  /-- The index of the first character behind the first block, if the text starts with a byte order
  mark. Otherwise zero. -/
  markReach : Nat

namespace Source

/-- How many bytes a block has at most. It holds whole characters only. -/
def blockSize : Nat := 512

/-- How many of the characters fit into so many bytes. -/
def fitting : (room : Nat) → List Char → Nat
  | _, [] => 0
  | room, c :: cs => if c.utf8Size ≤ room then fitting (room - c.utf8Size) cs + 1 else 0

/-- Where the first block starts that holds a character no document may hold. The current block
starts at `start` and has `room` left at `index`. -/
def faultFrom? : (room start index : Nat) → List Char → Option Nat
  | _, _, _, [] => none
  | room, start, index, c :: cs =>
    let fits := c.utf8Size ≤ room
    let start := if fits then start else index
    let room := if fits then room else blockSize
    if isAllowed c then faultFrom? (room - c.utf8Size) start (index + 1) cs else some start

/-- The characters of a text without a byte order mark in front, and what is left for them in the
first block. -/
def dropMark : List Char → List Char × Nat
  | [] => ([], blockSize)
  | c :: cs => if isByteOrderMark c then (cs, blockSize - c.utf8Size) else (c :: cs, blockSize)

/-- A text may start with one byte order mark. A second one is a character of the text. -/
def ofText (s : String) : Source :=
  let (cs, room) := dropMark s.toList
  let fault := faultFrom? room 0 0 cs
  let cs := match fault with
    | some start => cs.take start
    | none => cs
  let (letters, finish) := placed {} cs
  { letters, finish
    isCut := fault.isSome
    markReach := if cs.head?.any isByteOrderMark then fitting room cs else 0 }

end Source

end ShaderStyle
