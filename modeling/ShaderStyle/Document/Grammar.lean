import ShaderStyle.Document.Basic
import ShaderStyle.Document.Lexer

/-! How tokens make up a document. -/
namespace ShaderStyle.Document

/-- Reading from tokens, which can fail. -/
abbrev Reading := StateT Lexer Option

def peek : Reading Token := fun x => x.peek

def take : Reading Unit := modify Lexer.take

/-- Where a node stands, which decides on the collections that it can be. -/
inductive Context where
  /-- In a flow collection: no block collection. -/
  | flow
  /-- An item of a block sequence or the whole document. -/
  | item
  /-- A key or value of a block mapping, where a sequence needs no indentation. -/
  | entry
  deriving DecidableEq

/-- Whether nothing stands where an item of a block sequence could. -/
def endsItem : Token → Bool
  | .dash | .blockEnd => true
  | _ => false

/-- The same for a key or value of a block mapping. -/
def endsEntry : Token → Bool
  | .key | .value | .blockEnd => true
  | _ => false

/-- The same for the items of a sequence within a block mapping. -/
def endsLooseItem (t : Token) : Bool := t == .dash || endsEntry t

/-- Whether a flow collection goes on without a value. -/
def endsFlowValue (c : Collection) (t : Token) : Bool := t == .comma || t == .flowEnd c

def endsFlowKey (c : Collection) (t : Token) : Bool := t == .value || endsFlowValue c t

/-- Whether a flow collection has another element. A comma stands between two elements and may stand
behind the last. -/
def hasFlowElement (c : Collection) (isFirst : Bool) : Reading Bool := do
  let t ← peek
  if t == .flowEnd c then return false
  else if isFirst then return true
  else if t == .comma then
    take
    return (← peek) != .flowEnd c
  else failure

mutual

def node : (fuel : Nat) → Context → Reading Document
  | 0, _ => failure
  | fuel + 1, context => do
    match ← peek with
    | .scalar text quoted =>
      take
      return .scalar text quoted
    | .flowStart .sequence =>
      take
      return .sequence (← flowItems fuel true)
    | .flowStart .mapping =>
      take
      return .mapping (← flowEntries fuel true)
    | .dash => if context = .entry then return .sequence (← looseItems fuel) else failure
    | .blockStart .sequence =>
      if context = .flow then failure
      else
        take
        return .sequence (← blockItems fuel)
    | .blockStart .mapping =>
      if context = .flow then failure
      else
        take
        return .mapping (← blockEntries fuel)
    | _ => failure

/-- A node, unless the next token shows that there is none. -/
def nodeUnless (isEnd : Token → Bool) : (fuel : Nat) → Context → Reading Document
  | 0, _ => failure
  | fuel + 1, context => do
    if isEnd (← peek) then return missing else node fuel context

/-- The items of a block sequence, up to its end. -/
def blockItems : (fuel : Nat) → Reading (List Document)
  | 0 => failure
  | fuel + 1 => do
    match ← peek with
    | .dash =>
      take
      let item ← nodeUnless endsItem fuel .item
      return item :: (← blockItems fuel)
    | .blockEnd =>
      take
      return []
    | _ => failure

/-- The items of a sequence in the column of the mapping around it. -/
def looseItems : (fuel : Nat) → Reading (List Document)
  | 0 => failure
  | fuel + 1 => do
    match ← peek with
    | .dash =>
      take
      let item ← nodeUnless endsLooseItem fuel .item
      return item :: (← looseItems fuel)
    | _ => return []

/-- The entries of a block mapping, up to its end. -/
def blockEntries : (fuel : Nat) → Reading (List (Document × Document))
  | 0 => failure
  | fuel + 1 => do
    match ← peek with
    | .key =>
      take
      let key ← nodeUnless endsEntry fuel .entry
      let value ← valueUnless endsEntry fuel .entry
      return (key, value) :: (← blockEntries fuel)
    | .blockEnd =>
      take
      return []
    | _ => failure

/-- The value behind a colon, if there is one. -/
def valueUnless (isEnd : Token → Bool) : (fuel : Nat) → Context → Reading Document
  | 0, _ => failure
  | fuel + 1, context => do
    if (← peek) == .value then
      take
      nodeUnless isEnd fuel context
    else return missing

/-- The items of a flow sequence, up to its bracket. A key makes an item a mapping of one entry. -/
def flowItems : (fuel : Nat) → (isFirst : Bool) → Reading (List Document)
  | 0, _ => failure
  | fuel + 1, isFirst => do
    if ← hasFlowElement .sequence isFirst then
      let item ←
        if (← peek) == .key then do
          take
          let key ← flowItemKey fuel
          pure (mapping [(key, ← valueUnless (endsFlowValue .sequence) fuel .flow)])
        else node fuel .flow
      return item :: (← flowItems fuel false)
    else
      take
      return []

/-- The key of an item; the token that stands in for a missing one is passed over. -/
def flowItemKey : (fuel : Nat) → Reading Document
  | 0 => failure
  | fuel + 1 => do
    if endsFlowKey .sequence (← peek) then
      take
      return missing
    else node fuel .flow

/-- The entries of a flow mapping, up to its brace. A key alone has no value. -/
def flowEntries : (fuel : Nat) → (isFirst : Bool) → Reading (List (Document × Document))
  | 0, _ => failure
  | fuel + 1, isFirst => do
    if ← hasFlowElement .mapping isFirst then
      let entry ←
        if (← peek) == .key then do
          take
          let key ← nodeUnless (endsFlowKey .mapping) fuel .flow
          pure (key, ← valueUnless (endsFlowValue .mapping) fuel .flow)
        else do pure (← node fuel .flow, missing)
      return entry :: (← flowEntries fuel false)
    else
      take
      return []

end

/-- The first document of a text. What follows it counts only as far as tokens are found ahead. -/
def first (fuel : Nat) : Reading Document := do
  match ← peek with
  | .finish => return missing
  | .documentStart =>
    take
    match ← peek with
    | .documentStart | .documentEnd | .finish => return missing
    | _ => root
  | _ => root
where
  root : Reading Document := do
    let document ← node fuel .item
    let _ ← peek
    return document

/-- Reads the first document of a text. -/
def parse? (s : String) : Option Document := do
  let x := Lexer.ofText s
  let (document, _) ← (first (8 * (x.finish.index + 1))).run x
  return document

end ShaderStyle.Document
