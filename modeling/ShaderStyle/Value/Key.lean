import ShaderStyle.Value.Basic

/-! Values as keys of tables: when two are the same, and in which order tables show them. -/
namespace ShaderStyle.Value

/-- Whether two keys are the same. Numbers of different types are not, and a NaN is like no key. -/
def sameKey : Value → Value → Bool
  | .null, .null => true
  | .bool a, .bool b => a == b
  | .text s, .text t => s == t
  | .double x, .double y => x.le y && y.le x
  | .integer a m, .integer b n => a = b && m = n
  | .timestamp t, .timestamp u => t = u
  | _, _ => false

/-- The place of the type of a key among all types. -/
def keyRank : Value → Nat
  | .null => 0
  | .text _ => 1
  | .integer .int _ => 2
  | .bool _ => 3
  | .double _ => 4
  | .integer _ _ => 5
  | _ => 6

/-- Whether a key shows before another: keys of one type stand together, in their own order. -/
def keyLe (a b : Value) : Bool :=
  if a.keyRank ≠ b.keyRank then a.keyRank < b.keyRank
  else
    match a, b with
    | .bool x, .bool y => !x || y
    | .text s, .text t => s ≤ t
    | .integer _ m, .integer _ n => m ≤ n
    | .double x, .double y => x.isNan || x.le y
    | .timestamp t, .timestamp u =>
      t.nanosecond < u.nanosecond || (t.nanosecond = u.nanosecond && t.seconds ≤ u.seconds)
    | _, _ => true

/-- Stores an entry in a table, in place of one with the same key. -/
def insertEntry (entries : List (Value × Value)) (key value : Value) : List (Value × Value) :=
  if entries.any fun e => e.1.sameKey key then
    entries.map fun e => if e.1.sameKey key then (key, value) else e
  else entries ++ [(key, value)]

end ShaderStyle.Value
