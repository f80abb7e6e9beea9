-- Tables that are still being read. How a table came about decides what may be added to it.
import Thrift.Toml.Tree

namespace Thrift.Toml

inductive Origin
  /-- A header of its own. -/
  | header
  /-- It stood on the way to another header. -/
  | passed
  /-- It stood on the way to a dotted key. -/
  | dotted
deriving DecidableEq

/-- What a key leads to. -/
inductive Node
  | value (v : Toml)
  | table (origin : Origin) (members : List (String × Node))
  /-- The tables under a doubled header, of which the last one is open. -/
  | tables (closed : List Toml) (last : List (String × Node))

abbrev Members := List (String × Node)

namespace Members

/-- Puts a node in the place of the one under a key, or behind all others. -/
def put (key : String) (node : Node) : Members → Members
  | [] => [(key, node)]
  | (k, n) :: ms => if k = key then (k, node) :: ms else (k, n) :: put key node ms

/-- Changes the table at the end of a path. Tables that are missing on the way are made. A
dotted key does not lead into a table that has a header. -/
def within (way : Origin) (change : Origin → Members → Option Members) (origin : Origin) :
    List String → Members → Option Members
  | [], ms => change origin ms
  | key :: path, ms =>
    match ms.lookup key with
    | none => do return ms.put key (.table way (← within way change way path []))
    | some (.value _) => none
    | some (.tables closed last) => do
      return ms.put key (.tables closed (← within way change .header path last))
    | some (.table o inner) => do
      if way = .dotted && o = .header then none
      else return ms.put key (.table o (← within way change o path inner))

/-- Adds a value under a new key. -/
def insert (key : String) (v : Toml) (ms : Members) : Option Members :=
  if (ms.lookup key).isSome then none else some (ms.put key (.value v))

/-- Adds a value under a dotted key. The table that takes it must be open for dotted keys. -/
def insertAt (path : List String) (key : String) (v : Toml) (ms : Members) : Option Members :=
  if path.isEmpty then ms.insert key v
  else ms.within .dotted
    (fun origin inner => if origin = .dotted then inner.insert key v else none) .header path

/-- Opens the table of a header, which may have been passed before. -/
def openTable (key : String) (ms : Members) : Option Members :=
  match ms.lookup key with
  | none => some (ms.put key (.table .header []))
  | some (.table .passed inner) => some (ms.put key (.table .header inner))
  | some _ => none

end Members

mutual

/-- A finished node. -/
def Node.close : Node → Toml
  | .value v => v
  | .table _ members => .table (closeMembers members)
  | .tables closed last => .array (closed ++ [.table (closeMembers last)])

def closeMembers : List (String × Node) → List (String × Toml)
  | [] => []
  | (key, node) :: ms => (key, node.close) :: closeMembers ms

end

namespace Members

/-- Opens one more table of a doubled header. -/
def openNext (key : String) (ms : Members) : Option Members :=
  match ms.lookup key with
  | none => some (ms.put key (.tables [] []))
  | some (.tables closed last) =>
    some (ms.put key (.tables (closed ++ [.table (closeMembers last)]) []))
  | some _ => none

/-- Applies a change to the table that a header's path leads to. -/
def atHeader (path : List String) (change : Members → Option Members) (ms : Members) :
    Option Members :=
  ms.within .passed (fun _ => change) .header path

end Members

end Thrift.Toml
