-- Names: dotted names and the spelling of names made from other names.
import Thrift.Text.CaseMap

namespace Thrift

/-! ## Dotted names -/

/-- The characters after the last dot. -/
def lastSegment (cs : List Char) : List Char := (cs.reverse.takeWhile (· != '.')).reverse

/-- A name without what qualifies it: `User` of `shared.User`. -/
def baseName (name : String) : String := String.ofList (lastSegment name.toList)

/-- What stands before and after the last dot of a name that has one. -/
def splitLast (name : String) : Option (String × String) :=
  let cs := name.toList
  if '.' ∈ cs then
    let last := lastSegment cs
    some (String.ofList (cs.take (cs.length - last.length - 1)), String.ofList last)
  else none

/-! ## Case -/

/-- Drops each underscore and raises the character after it; `start` tells that the next
character starts a word. -/
def pascalChars : Bool → List Char → List Char
  | _, [] => []
  | start, c :: cs =>
    if c = '_' then pascalChars true cs
    else if start then Text.upperChar c ++ pascalChars false cs
    else c :: pascalChars false cs

/-- A name in words that start with capitals: `GetUser` for `get_user`. -/
def pascalCase (name : String) : String := String.ofList (pascalChars true name.toList)

end Thrift
