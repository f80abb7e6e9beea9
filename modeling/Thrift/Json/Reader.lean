-- JSON text to trees. Nesting is limited where a value is kept, and free where it is only
-- passed over. The first fault in the order of the text is the one reported.
import Thrift.Json.Numeral
import Thrift.Json.Quoted

namespace Thrift.Json

/-- The blanks of JSON. -/
def isBlank (c : Char) : Bool := c = ' ' || c = '\n' || c = '\t' || c = '\r'

def skipBlank (cs : List Char) : List Char := cs.dropWhile isBlank

/-- How many lists and objects may be nested. -/
def maxNesting : Nat := 127

/-- The rest after a word that must stand here. -/
def expectWord : List Char → List Char → Except Fault (List Char)
  | [], rest => .ok rest
  | _ :: _, [] => .error .truncated
  | w :: ws, c :: rest => if w = c then expectWord ws rest else .error .malformed

/-- Values that hold no others, given that the first character is neither bracket. -/
def readScalar (care : Care) : List Char → Except Fault (Json × List Char)
  | [] => .error .truncated
  | c :: rest =>
    if c = '"' then do
      let (s, rest) ← readString care rest
      return (.string s, rest)
    else if c = 'n' then do return (.null, ← expectWord "ull".toList rest)
    else if c = 't' then do return (.bool true, ← expectWord "rue".toList rest)
    else if c = 'f' then do return (.bool false, ← expectWord "alse".toList rest)
    else if c = '-' || c.isDigit then do
      let (n, rest) ← readNumeral care (c :: rest)
      match care with
      | .lax => return (.null, rest)
      | .strict => return (← n.value, rest)
    else .error .malformed

/-- The rest after the colon that follows a name. -/
def expectColon (cs : List Char) : Except Fault (List Char) :=
  match skipBlank cs with
  | [] => .error .truncated
  | ':' :: rest => .ok rest
  | _ => .error .malformed

/-- A name and its colon. -/
def readName (care : Care) : List Char → Except Fault (String × List Char)
  | [] => .error .truncated
  | '"' :: rest => do
    let (name, rest) ← readString care rest
    return (name, ← expectColon rest)
  | _ => .error .malformed

/-- What follows an element: the end of the block, or one more element. -/
inductive After
  | closed
  | another

/-- Reads a comma or the closing bracket. A comma before the closing bracket is refused by
the reader of the next element. -/
def readAfter (close : Char) (cs : List Char) : Except Fault (After × List Char) :=
  match skipBlank cs with
  | [] => .error .truncated
  | c :: rest =>
    if c = ',' then .ok (.another, skipBlank rest)
    else if c = close then .ok (.closed, rest)
    else .error .malformed

mutual

/-- One value. `depth` is what is left of the nesting limit, and the first argument, the
budget, bounds the number of steps. -/
def readValue (care : Care) : Nat → Nat → List Char → Except Fault (Json × List Char)
  | 0, _, _ => .error .truncated
  | budget + 1, depth, cs =>
    match skipBlank cs with
    | '[' :: rest =>
      if depth = 0 && care = .strict then .error .malformed
      else match skipBlank rest with
        | ']' :: rest => .ok (.list [], rest)
        | rest => do
          let (items, rest) ← readItems care budget (depth - 1) rest
          return (.list items, rest)
    | '\x7b' :: rest =>
      if depth = 0 && care = .strict then .error .malformed
      else match skipBlank rest with
        | '\x7d' :: rest => .ok (.object [], rest)
        | rest => do
          let (members, rest) ← readMembers care budget (depth - 1) rest
          return (.object members, rest)
    | rest => readScalar care rest

/-- The elements of a list up to its bracket. -/
def readItems (care : Care) : Nat → Nat → List Char → Except Fault (List Json × List Char)
  | 0, _, _ => .error .truncated
  | budget + 1, depth, cs => do
    let (item, rest) ← readValue care budget depth cs
    match ← readAfter ']' rest with
    | (.closed, rest) => return ([item], rest)
    | (.another, rest) =>
      let (items, rest) ← readItems care budget depth rest
      return (item :: items, rest)

/-- The members of an object up to its bracket. -/
def readMembers (care : Care) : Nat → Nat → List Char →
    Except Fault (List (String × Json) × List Char)
  | 0, _, _ => .error .truncated
  | budget + 1, depth, cs => do
    let (name, rest) ← readName care cs
    let (value, rest) ← readValue care budget depth rest
    match ← readAfter '\x7d' rest with
    | (.closed, rest) => return ([(name, value)], rest)
    | (.another, rest) =>
      let (members, rest) ← readMembers care budget depth rest
      return ((name, value) :: members, rest)

end

/-- More steps than any reading of the text takes. -/
def budgetOf (cs : List Char) : Nat := 2 * cs.length + 2

/-- Only blanks may follow the value. -/
def expectEnd (cs : List Char) : Except Fault Unit :=
  match skipBlank cs with
  | [] => .ok ()
  | _ => .error .malformed

/-- The tree of a text that holds one value. -/
def ofText (s : String) : Except Fault Json := do
  let cs := s.toList
  let (value, rest) ← readValue .strict (budgetOf cs) maxNesting cs
  expectEnd rest
  return value

end Thrift.Json
