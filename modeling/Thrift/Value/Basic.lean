-- Values as they are sent and received. An enum travels as the number of its member; lists,
-- sets and maps keep the order of the wire, and a map may hold a key twice.
import Thrift.Wire.BigEndian
import Thrift.Number.Double

namespace Thrift

inductive Value
  | bool (b : Bool)
  | byte (v : Int8)
  | i16 (v : Int16)
  | i32 (v : Int32)
  | i64 (v : Int64)
  | double (v : Double)
  | string (s : String)
  | binary (bytes : Bytes)
  | list (items : List Value)
  | set (items : List Value)
  | map (entries : List (Value × Value))
  | struct (name : String) (fields : List (String × Value))
  | void
deriving Inhabited

/-- An instance of a struct, union or exception: the fields that are set, sorted by name. -/
structure StructValue where
  name : String
  fields : List (String × Value)
deriving Inhabited

/-! ## Fields sorted by name -/

namespace Fields

/-- Puts a value under a name and keeps the names in order, each one once. -/
def insert (name : String) (v : Value) : List (String × Value) → List (String × Value)
  | [] => [(name, v)]
  | (n, w) :: rest =>
    if name < n then (name, v) :: (n, w) :: rest
    else if name = n then (name, v) :: rest
    else (n, w) :: insert name v rest

def erase (name : String) (fields : List (String × Value)) : List (String × Value) :=
  fields.filter (·.1 != name)

end Fields

namespace StructValue

/-- An instance without any field set. -/
def empty (name : String) : StructValue := ⟨name, []⟩

def get? (s : StructValue) (field : String) : Option Value := s.fields.lookup field

def set (s : StructValue) (field : String) (v : Value) : StructValue :=
  { s with fields := Fields.insert field v s.fields }

def erase (s : StructValue) (field : String) : StructValue :=
  { s with fields := Fields.erase field s.fields }

def contains (s : StructValue) (field : String) : Bool := (s.get? field).isSome

def size (s : StructValue) : Nat := s.fields.length

/-- The instance as a value. -/
def toValue (s : StructValue) : Value := .struct s.name s.fields

end StructValue

namespace Value

/-- The short name of a value's type. -/
def typeName : Value → String
  | bool _ => "bool"
  | byte _ => "byte"
  | i16 _ => "i16"
  | i32 _ => "i32"
  | i64 _ => "i64"
  | double _ => "double"
  | string _ => "string"
  | binary _ => "binary"
  | list _ => "list"
  | set _ => "set"
  | map _ => "map"
  | struct _ _ => "struct"
  | void => "void"

def isVoid : Value → Bool
  | void => true
  | _ => false

/-- The number of elements of a container. -/
def size? : Value → Option Nat
  | list items => some items.length
  | set items => some items.length
  | map entries => some entries.length
  | _ => none

def asI32 : Value → Option Int32
  | i32 v => some v
  | _ => none

def asI64 : Value → Option Int64
  | i64 v => some v
  | _ => none

def asString : Value → Option String
  | string s => some s
  | _ => none

def asStruct : Value → Option StructValue
  | struct name fields => some ⟨name, fields⟩
  | _ => none

/-! ## Equality of numbers, at any depth -/

mutual

/-- Values are the same when their numbers are: NaN differs from itself, and the zeros are
equal. -/
def same : Value → Value → Bool
  | bool a, bool b => a == b
  | byte a, byte b => a == b
  | i16 a, i16 b => a == b
  | i32 a, i32 b => a == b
  | i64 a, i64 b => a == b
  | double a, double b => a.sameNumber b
  | string a, string b => a == b
  | binary a, binary b => a == b
  | list a, list b => sameItems a b
  | set a, set b => sameItems a b
  | map a, map b => sameEntries a b
  | struct m a, struct n b => m == n && sameFields a b
  | void, void => true
  | _, _ => false

def sameItems : List Value → List Value → Bool
  | [], [] => true
  | a :: as, b :: bs => same a b && sameItems as bs
  | _, _ => false

def sameEntries : List (Value × Value) → List (Value × Value) → Bool
  | [], [] => true
  | (k, a) :: as, (l, b) :: bs => same k l && same a b && sameEntries as bs
  | _, _ => false

def sameFields : List (String × Value) → List (String × Value) → Bool
  | [], [] => true
  | (m, a) :: as, (n, b) :: bs => m == n && same a b && sameFields as bs
  | _, _ => false

end

end Value

def StructValue.same (a b : StructValue) : Bool := a.toValue.same b.toValue

end Thrift
