-- Values as JSON: the name of the type beside the value.
import Thrift.Json.Record
import Thrift.Value.Basic

namespace Thrift

open Json (Fault)

namespace Value

def tagged (type : String) (value : Json) : Json :=
  .object [("type", .string type), ("value", value)]

mutual

def toJson : Value → Json
  | bool b => tagged "bool" (.bool b)
  | byte v => tagged "byte" (.int v.toInt)
  | i16 v => tagged "i16" (.int v.toInt)
  | i32 v => tagged "i32" (.int v.toInt)
  | i64 v => tagged "i64" (.int v.toInt)
  | double v => tagged "double" (.double v)
  | string s => tagged "string" (.string s)
  | binary bytes => tagged "binary" (.list (bytes.map fun b => .int b.toNat))
  | list items => tagged "list" (.list (toJsonItems items))
  | set items => tagged "set" (.list (toJsonItems items))
  | map entries => tagged "map" (.list (toJsonEntries entries))
  | struct name fields =>
    tagged "struct" (.object [("name", .string name), ("fields", .object (toJsonFields fields))])
  | void => .object [("type", .string "void")]

def toJsonItems : List Value → List Json
  | [] => []
  | v :: vs => v.toJson :: toJsonItems vs

def toJsonEntries : List (Value × Value) → List Json
  | [] => []
  | (k, v) :: es => .list [k.toJson, v.toJson] :: toJsonEntries es

def toJsonFields : List (String × Value) → List (String × Json)
  | [] => []
  | (name, v) :: fs => (name, v.toJson) :: toJsonFields fs

end

/-- Fields out of an object; of a repeated name the last value stays. -/
def fieldsOfJson (read : Json → Except Fault Value) (j : Json) :
    Except Fault (List (String × Value)) := do
  match j with
  | .object members =>
    members.foldlM (fun fields (name, j) => do return Fields.insert name (← read j) fields) []
  | _ => throw .misshapen

/-- An instance out of a record of its name and its fields. -/
def structOfJson (read : Json → Except Fault Value) (j : Json) : Except Fault StructValue := do
  match ← j.slots ["name", "fields"] with
  | [name, fields] =>
    return ⟨← Json.required Json.asString name, ← Json.required (fieldsOfJson read) fields⟩
  | _ => throw .misshapen

def entryOfJson (read : Json → Except Fault Value) (j : Json) : Except Fault (Value × Value) := do
  match j with
  | .list [k, v] => return (← read k, ← read v)
  | _ => throw .misshapen

/-- The words for values, in their fixed order. -/
def tags : List String :=
  ["bool", "byte", "i16", "i32", "i64", "double", "string", "binary", "list", "set", "map",
    "struct", "void"]

/-- Reads a value; the first argument bounds the nesting. -/
def ofJsonWithin : Nat → Json → Except Fault Value
  | 0, _ => .error .misshapen
  | budget + 1, j => do
    match ← j.asLabelled .alone tags with
    | ("void", none) => return void
    | ("void", some .null) => return void
    | ("bool", some j) => return bool (← j.asBool)
    | ("byte", some j) => return byte (← j.asInt8)
    | ("i16", some j) => return i16 (← j.asInt16)
    | ("i32", some j) => return i32 (← j.asInt32)
    | ("i64", some j) => return i64 (← j.asInt64)
    | ("double", some j) => return double (← j.asDouble)
    | ("string", some j) => return string (← j.asString)
    | ("binary", some j) => return binary (← Json.listOf Json.asUInt8 j)
    | ("list", some j) => return list (← Json.listOf (ofJsonWithin budget) j)
    | ("set", some j) => return set (← Json.listOf (ofJsonWithin budget) j)
    | ("map", some j) => return map (← Json.listOf (entryOfJson (ofJsonWithin budget)) j)
    | ("struct", some j) => return (← structOfJson (ofJsonWithin budget) j).toValue
    | _ => throw .misshapen

def ofJson (j : Json) : Except Fault Value := ofJsonWithin (j.height + 1) j

end Value

namespace StructValue

def toJson (s : StructValue) : Json :=
  .object [("name", .string s.name), ("fields", .object (Value.toJsonFields s.fields))]

def ofJson (j : Json) : Except Fault StructValue := Value.structOfJson Value.ofJson j

end StructValue

end Thrift
