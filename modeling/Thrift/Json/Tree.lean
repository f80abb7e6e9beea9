-- JSON values as trees. Integers and doubles stay apart, and an object keeps its members
-- in the order of the text, repeated names included.
import Thrift.Number.Double

namespace Thrift

inductive Json
  | null
  | bool (b : Bool)
  | int (n : Int)
  | double (x : Double)
  | string (s : String)
  | list (items : List Json)
  | object (members : List (String × Json))
deriving Inhabited

namespace Json

/-- A double as a value. JSON has none for infinity and NaN. -/
def ofDouble (x : Double) : Json := if x.isFinite then .double x else .null

/-- The value under a name; the last one counts when a name is repeated. -/
def get? (j : Json) (name : String) : Option Json :=
  match j with
  | object members => members.reverse.lookup name
  | _ => none

/-- Why a text is not accepted: it ends too early, it is no JSON, or it is JSON of another
shape than the one asked for. -/
inductive Fault
  | truncated
  | malformed
  | misshapen
deriving DecidableEq, Repr

/-- Whether a value is kept or only passed over. Where it is passed over, half of a surrogate
pair, a number out of range and deep nesting do no harm. -/
inductive Care
  | strict
  | lax
deriving DecidableEq, Repr

end Json

end Thrift
