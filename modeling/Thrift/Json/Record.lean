-- Records and tagged alternatives as trees. A record is an object, or the list of its
-- fields in their order, in which fields at the end may be left out.
import Thrift.Json.Tree

namespace Thrift.Json

/-! ## Height -/

mutual

/-- How many lists and objects are nested. -/
def height : Json → Nat
  | list items => heightOfItems items + 1
  | object members => heightOfMembers members + 1
  | _ => 0

def heightOfItems : List Json → Nat
  | [] => 0
  | j :: js => max j.height (heightOfItems js)

def heightOfMembers : List (String × Json) → Nat
  | [] => 0
  | (_, j) :: ms => max j.height (heightOfMembers ms)

end

/-! ## Scalars -/

def asString : Json → Except Fault String
  | string s => .ok s
  | _ => .error .misshapen

def asBool : Json → Except Fault Bool
  | bool b => .ok b
  | _ => .error .misshapen

/-- An integer in a closed range. A number with a point or an exponent is no integer. -/
def asIntIn (low high : Int) : Json → Except Fault Int
  | int n => if low ≤ n && n ≤ high then .ok n else .error .misshapen
  | _ => .error .misshapen

def asInt8 (j : Json) : Except Fault Int8 :=
  (j.asIntIn Int8.minValue.toInt Int8.maxValue.toInt).map Int8.ofInt

def asInt16 (j : Json) : Except Fault Int16 :=
  (j.asIntIn Int16.minValue.toInt Int16.maxValue.toInt).map Int16.ofInt

def asInt32 (j : Json) : Except Fault Int32 :=
  (j.asIntIn Int32.minValue.toInt Int32.maxValue.toInt).map Int32.ofInt

def asInt64 (j : Json) : Except Fault Int64 :=
  (j.asIntIn Int64.minValue.toInt Int64.maxValue.toInt).map Int64.ofInt

def asUInt8 (j : Json) : Except Fault UInt8 :=
  (j.asIntIn 0 (UInt8.size - 1)).map fun n => UInt8.ofNat n.toNat

def asUInt32 (j : Json) : Except Fault UInt32 :=
  (j.asIntIn 0 (UInt32.size - 1)).map fun n => UInt32.ofNat n.toNat

/-- An integer serves as a double. -/
def asDouble : Json → Except Fault Double
  | double x => .ok x
  | int n => .ok (Double.ofInt n)
  | _ => .error .misshapen

def asList : Json → Except Fault (List Json)
  | list items => .ok items
  | _ => .error .misshapen

/-! ## Records -/

/-- The value under a name of an object, which may not be repeated. -/
def single (members : List (String × Json)) (name : String) : Except Fault (Option Json) :=
  match members.filter (·.1 == name) with
  | [] => .ok none
  | [(_, value)] => .ok (some value)
  | _ => .error .misshapen

/-- The fields of a record in their order, each with its value or absent. Other members of an
object are ignored; other elements of a list are not. -/
def slots (names : List String) : Json → Except Fault (List (Option Json))
  | object members => names.mapM (single members)
  | list items =>
    if items.length ≤ names.length then
      .ok (items.map some ++ List.replicate (names.length - items.length) none)
    else .error .misshapen
  | _ => .error .misshapen

/-- A field that must be there. -/
def required {α : Type} (read : Json → Except Fault α) : Option Json → Except Fault α
  | some j => read j
  | none => .error .misshapen

/-- A field that has a value of its own when it is left out. -/
def orElse {α : Type} (absent : α) (read : Json → Except Fault α) : Option Json → Except Fault α
  | some j => read j
  | none => .ok absent

/-- A field that may be left out or null. -/
def optional {α : Type} (read : Json → Except Fault α) : Option Json → Except Fault (Option α)
  | none => .ok none
  | some null => .ok none
  | some j => (read j).map some

/-- Every element of a list. -/
def listOf {α : Type} (read : Json → Except Fault α) (j : Json) : Except Fault (List α) := do
  (← j.asList).mapM read

/-! ## Alternatives -/

/-- Where a value stands. Inside a document a tag may also be the position of its word, and an
empty object may stand where nothing is held. -/
inductive Standing
  | alone
  | inside
deriving DecidableEq, Repr

/-- The word of a tag out of the words in their order. -/
def asTag (standing : Standing) (words : List String) : Json → Except Fault String
  | string s => .ok s
  | int n =>
    if standing = .inside && 0 ≤ n then
      match words[n.toNat]? with
      | some word => .ok word
      | none => .error .misshapen
    else .error .misshapen
  | _ => .error .misshapen

/-- A word out of a fixed choice, which may also stand as the only name of an object that
holds nothing. -/
def asWord (standing : Standing) : Json → Except Fault String
  | string s => .ok s
  | object [(s, null)] => .ok s
  | object [(s, object [])] => if standing = .inside then .ok s else .error .misshapen
  | _ => .error .misshapen

/-- Takes the tag off a tagged record: the member `type` of an object or the first element of
a list. What is left is again a record. -/
def untag : Json → Except Fault (Json × Json)
  | object members => do
    match ← single members "type" with
    | some tag => return (tag, object (members.filter (·.1 != "type")))
    | none => throw .misshapen
  | list (tag :: items) => .ok (tag, list items)
  | _ => .error .misshapen

/-- A word and the value beside it, which an object may lack: the members `type` and `value` of
an object, or a list of the two. -/
def asLabelled (standing : Standing) (words : List String) :
    Json → Except Fault (String × Option Json)
  | object members => do
    return (← required (asWord standing) (← single members "type"), ← single members "value")
  | list [tag, value] => do return (← asTag standing words tag, some value)
  | _ => .error .misshapen

end Thrift.Json
