-- How far two names are apart: the least number of insertions, deletions and
-- replacements of characters that turns one into the other.

namespace Thrift.Text

/-- The next row of distances. Of the row above, `diagonal` is the entry one place to the left
and `above` holds the rest; `left` is the entry just made. -/
def distanceRow (a : Char) (left diagonal : Nat) : List Char → List Nat → List Nat
  | b :: bs, up :: above =>
    let here := min (min (left + 1) (up + 1)) (diagonal + if a = b then 0 else 1)
    here :: distanceRow a here up bs above
  | _, _ => []

/-- Turns the row of `as`' predecessors into the row for all of `as`. -/
def distanceRows (bs : List Char) : List Char → Nat → List Nat → List Nat
  | [], _, row => row
  | a :: as, i, row =>
    match row with
    | [] => []
    | corner :: above =>
      distanceRows bs as (i + 1) ((i + 1) :: distanceRow a (i + 1) corner bs above)

/-- The edit distance of two texts, in characters. -/
def distance (s t : String) : Nat :=
  let bs := t.toList
  (distanceRows bs s.toList 0 (List.range (bs.length + 1))).getLastD 0

/-- One text occurs in the other as a block. -/
def occursIn (part : List Char) : List Char → Bool
  | [] => part.isEmpty
  | whole@(_ :: rest) => part.isPrefixOf whole || occursIn part rest

end Thrift.Text
