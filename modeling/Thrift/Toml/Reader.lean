-- TOML text to trees.
import Thrift.Toml.Quoted
import Thrift.Toml.Scalar
import Thrift.Toml.Table

namespace Thrift.Toml

/-- A path and the equals sign behind it. -/
def readAssignment (cs : List Char) : Option ((List String × String) × List Char) := do
  let (path, rest) ← readPath cs
  match skipBlank rest with
  | '=' :: rest => return (path, skipBlank rest)
  | _ => none

mutual

/-- One value. `depth` is what is left of the nesting limit, and the first argument, the
budget, bounds the number of steps. -/
def readValue : Nat → Nat → List Char → Option (Toml × List Char)
  | 0, _, _ => none
  | budget + 1, depth, cs =>
    match cs with
    | '"' :: rest => do
      let (s, rest) ← readString '"' rest
      return (.string s, rest)
    | '\'' :: rest => do
      let (s, rest) ← readString '\'' rest
      return (.string s, rest)
    | '[' :: rest => do
      if depth = 0 then none
      else
        let (items, rest) ← readItems budget (depth - 1) rest
        return (.array items, rest)
    | '\x7b' :: rest =>
      if depth = 0 then none
      else match skipBlank rest with
        | '\x7d' :: rest => some (.table [], rest)
        | rest => do
          let (members, rest) ← readPairs budget (depth - 1) [] rest
          return (.table (closeMembers members), rest)
    | cs => readPlain cs

/-- The items of an array up to its bracket. Lines may end between them, and a comma may stand
behind the last one. -/
def readItems : Nat → Nat → List Char → Option (List Toml × List Char)
  | 0, _, _ => none
  | budget + 1, depth, cs => do
    match ← skipLines false cs with
    | ']' :: rest => return ([], rest)
    | cs =>
      let (item, rest) ← readValue budget depth cs
      match ← skipLines false rest with
      | ']' :: rest => return ([item], rest)
      | ',' :: rest =>
        let (items, rest) ← readItems budget depth rest
        return (item :: items, rest)
      | _ => none

/-- The members of a table in braces, which stands on one line. -/
def readPairs : Nat → Nat → Members → List Char → Option (Members × List Char)
  | 0, _, _, _ => none
  | budget + 1, depth, ms, cs => do
    let ((path, key), rest) ← readAssignment cs
    let (v, rest) ← readValue budget depth rest
    let ms ← ms.insertAt path key v
    match skipBlank rest with
    | '\x7d' :: rest => return (ms, rest)
    | ',' :: rest => readPairs budget depth ms rest
    | _ => none

end

/-- More steps than any reading of the text takes. -/
def budgetOf (cs : List Char) : Nat := 2 * cs.length + 2

/-- How far the lines of a text are read: the tables so far, and the path of the open one. -/
structure Progress where
  root : Members
  here : List String

/-- Takes in the line of a header. -/
def readHeader (cs : List Char) (p : Progress) : Option (Progress × List Char) := do
  let ((path, key), rest) ← readPath cs
  match rest with
  | ']' :: rest =>
    return (⟨← p.root.atHeader path (Members.openTable key), path ++ [key]⟩, ← lineEnd rest)
  | _ => none

/-- Takes in the line of a doubled header. -/
def readDoubledHeader (cs : List Char) (p : Progress) : Option (Progress × List Char) := do
  let ((path, key), rest) ← readPath cs
  match rest with
  | ']' :: ']' :: rest =>
    return (⟨← p.root.atHeader path (Members.openNext key), path ++ [key]⟩, ← lineEnd rest)
  | _ => none

/-- Takes in the line of a key and its value. -/
def readMember (cs : List Char) (p : Progress) : Option (Progress × List Char) := do
  let ((path, key), rest) ← readAssignment cs
  let (v, rest) ← readValue (budgetOf rest) maxNesting rest
  let root ← p.root.atHeader p.here fun ms => ms.insertAt path key v
  return (⟨root, p.here⟩, ← lineEnd rest)

/-- Takes in all lines; the budget bounds their number. -/
def readLines : Nat → Progress → List Char → Option Progress
  | 0, _, _ => none
  | budget + 1, p, cs => do
    match cs with
    | [] => return p
    | '[' :: '[' :: rest =>
      let (p, rest) ← readDoubledHeader rest p
      readLines budget p rest
    | '[' :: rest =>
      let (p, rest) ← readHeader rest p
      readLines budget p rest
    | cs =>
      let (p, rest) ← readMember cs p
      readLines budget p rest

/-- The text without a byte order mark. -/
def dropMark : List Char → List Char
  | '\uFEFF' :: cs => cs
  | cs => cs

/-- The root table of a text. -/
def ofText (s : String) : Option (List (String × Toml)) := do
  let cs ← skipLines false (dropMark s.toList)
  return closeMembers (← readLines (cs.length + 1) ⟨[], []⟩ cs).root

end Thrift.Toml
