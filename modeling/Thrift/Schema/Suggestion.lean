-- Names to offer in the place of an unknown one.
import Thrift.Text.CaseMap
import Thrift.Text.Distance

namespace Thrift

/-- A name and how far it is from the one asked for. -/
structure Suggestion where
  candidate : String
  distance : Nat
deriving DecidableEq, Repr

namespace Suggestion

/-- The distance of a candidate: none for the name itself, 0 when only the case differs, 1 when
one holds the other, and else the number of edits, if there are not too many. -/
def distance? (name candidate : String) (most : Nat) : Option Nat :=
  if candidate = name then none
  else
    let a := Text.lower name
    let b := Text.lower candidate
    if a = b then some 0
    else if Text.occursIn a.toList b.toList || Text.occursIn b.toList a.toList then some 1
    else
      let d := Text.distance name candidate
      if d ≤ most then some d else none

/-- The candidates that are near enough, the nearest first. Among equally near ones the order
of the candidates stays. -/
def near (name : String) (candidates : List String) (most : Nat) : List Suggestion :=
  (candidates.filterMap fun c => (distance? name c most).map (⟨c, ·⟩)).mergeSort
    fun a b => a.distance ≤ b.distance

end Suggestion

end Thrift
