-- Trees to JSON text, on one line or indented.
import Thrift.Json.Quoted
import Thrift.Number.Shortest

namespace Thrift.Json

/-- The text of a double. JSON has no word for infinity and NaN. -/
def writtenDouble (x : Double) : String :=
  if x.isNaN || x.isInfinite then "null" else x.literal

mutual

/-- The text of a value on one line, without blanks. -/
def compact : Json → String
  | null => "null"
  | bool b => if b then "true" else "false"
  | int n => toString n
  | double x => writtenDouble x
  | string s => writtenString s
  | list items => "[" ++ compactItems items ++ "]"
  | object members => "\x7b" ++ compactMembers members ++ "\x7d"

def compactItems : List Json → String
  | [] => ""
  | [j] => compact j
  | j :: js => compact j ++ "," ++ compactItems js

def compactMembers : List (String × Json) → String
  | [] => ""
  | [(name, j)] => writtenString name ++ ":" ++ compact j
  | (name, j) :: ms => writtenString name ++ ":" ++ compact j ++ "," ++ compactMembers ms

end

/-- A line break and two blanks for each level. -/
def lineBreak (level : Nat) : String := "\n" ++ String.ofList (List.replicate (2 * level) ' ')

mutual

/-- The text of a value with a line for each element. -/
def pretty (level : Nat) : Json → String
  | list [] => "[]"
  | object [] => "\x7b\x7d"
  | list items => "[" ++ prettyItems (level + 1) items ++ lineBreak level ++ "]"
  | object members => "\x7b" ++ prettyMembers (level + 1) members ++ lineBreak level ++ "\x7d"
  | null => "null"
  | bool b => if b then "true" else "false"
  | int n => toString n
  | double x => writtenDouble x
  | string s => writtenString s

def prettyItems (level : Nat) : List Json → String
  | [] => ""
  | [j] => lineBreak level ++ pretty level j
  | j :: js => lineBreak level ++ pretty level j ++ "," ++ prettyItems level js

def prettyMembers (level : Nat) : List (String × Json) → String
  | [] => ""
  | [(name, j)] => lineBreak level ++ writtenString name ++ ": " ++ pretty level j
  | (name, j) :: ms =>
    lineBreak level ++ writtenString name ++ ": " ++ pretty level j ++ "," ++ prettyMembers level ms

end

end Thrift.Json
