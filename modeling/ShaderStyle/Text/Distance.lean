/-! Distances between words, for suggestions. -/
namespace ShaderStyle.Text

/-- The row below a row of distances to the beginnings of a word. `left` is the new entry to the
left, and the row starts with the entry above that one. -/
def distanceRow (x : UInt8) : (left : Nat) → List UInt8 → List Nat → List Nat
  | left, y :: ys, diagonal :: above :: row =>
    let entry :=
      if x == y then diagonal else Nat.min above (Nat.min left diagonal) + 1
    entry :: distanceRow x entry ys (above :: row)
  | _, _, _ => []

/-- The least number of insertions, removals and replacements that lead from one word to the
other, counted in bytes. -/
def distance (a b : String) : Nat :=
  let target := b.toUTF8.toList
  let row := a.toUTF8.toList.foldl
    (fun row x =>
      let first := row.headD 0 + 1
      first :: distanceRow x first target row)
    (List.range (target.length + 1))
  row.getLastD 0

end ShaderStyle.Text
