/-! The pieces that a document is made of. -/
namespace ShaderStyle

/-- The two kinds of collections. -/
inductive Collection where
  | sequence | mapping
  deriving DecidableEq

inductive Token where
  /-- Nothing follows. -/
  | finish
  /-- Three dashes on a line. -/
  | documentStart
  /-- Three dots on a line. -/
  | documentEnd
  /-- A line is indented further than the collection around it. -/
  | blockStart (c : Collection)
  /-- A line is indented less than a collection. -/
  | blockEnd
  /-- An opening bracket or brace. -/
  | flowStart (c : Collection)
  /-- A closing bracket or brace. -/
  | flowEnd (c : Collection)
  | comma
  /-- A dash in front of an item. -/
  | dash
  /-- The start of a key, which may have no mark of its own. -/
  | key
  /-- The colon in front of a value. -/
  | value
  | scalar (text : String) (quoted : Bool)
  deriving DecidableEq

end ShaderStyle
