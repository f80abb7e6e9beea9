-- Paths as texts with slashes.

namespace Thrift.Path

def isAbsolute (path : String) : Bool := path.toList.head? == some '/'

/-- The second path seen from the first. An absolute path stands for itself, and one slash
separates the two where the first does not end with a slash. -/
def join (base path : String) : String :=
  if isAbsolute path then path
  else if base.isEmpty || base.toList.getLast? == some '/' then base ++ path
  else base ++ "/" ++ path

/-- The parts between slashes, without empty ones and dots that stand for the place itself. -/
def components (path : String) : List String :=
  (path.splitOn "/").filter fun part => part != "" && part != "."

/-- The name of the file, unless the path ends with a step upwards. -/
def fileName (path : String) : Option String :=
  match (components path).getLast? with
  | some ".." => none
  | name => name

/-- A path without slashes and steps to the place itself at its end, both last character first.
The slash of the root stays. -/
def trimmed : List Char → List Char
  | '/' :: cs => if cs.isEmpty then ['/'] else trimmed cs
  | '.' :: cs => if cs.head? = some '/' then trimmed cs else '.' :: cs
  | cs => cs

/-- The path of the folder that a file is in. -/
def parent (path : String) : String :=
  String.ofList (trimmed (path.toList.reverse.dropWhile (· != '/'))).reverse

/-- A file's name without its last extension. A dot at the start is part of the name. -/
def fileStem (path : String) : Option String :=
  (fileName path).map fun name =>
    let cs := name.toList
    let tail := cs.reverse.takeWhile (· != '.')
    let head := cs.take (cs.length - tail.length - 1)
    if '.' ∈ cs && !head.isEmpty then String.ofList head else name

end Thrift.Path
