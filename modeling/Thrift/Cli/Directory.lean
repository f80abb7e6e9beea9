-- A directory with the files and folders in it, as far as a run sees it. Paths and names are
-- Unicode texts, and what is reached from the root is taken to be apart from the directory.
import Thrift.Schema.Path

namespace Thrift.Cli

inductive FileFault
  | missing
  | occupied
  | notFolder
  | isFolder
  | nameTooLong
  | nameWithNul
deriving DecidableEq, Repr

def FileFault.message : FileFault → String
  | missing => "No such file or directory (os error 2)"
  | occupied => "File exists (os error 17)"
  | notFolder => "Not a directory (os error 20)"
  | isFolder => "Is a directory (os error 21)"
  | nameTooLong => "File name too long (os error 36)"
  | nameWithNul => "file name contained an unexpected NUL byte"

/-- The names on the way to a file or folder. The way starts in the directory, or with a slash
at the root; one from the root is not followed back into the directory. -/
abbrev Place := List String

structure Directory where
  files : List (Place × String)
  folders : List Place
deriving DecidableEq

namespace Directory

def empty : Directory := ⟨[], []⟩

/-- The root, the directory itself and the folders above it are always there. -/
def isOutside (p : Place) : Bool := p == ["/"] || p.all (· == "..")

def isFolder (d : Directory) (p : Place) : Bool := isOutside p || p ∈ d.folders

def isFile (d : Directory) (p : Place) : Bool := (d.files.lookup p).isSome

/-- The place that one part of a path leads to. -/
def next (p : Place) (part : String) : Place :=
  if part = "" || part = "." then p
  else if part = ".." then
    if p == ["/"] then p
    else if p.all (· == "..") then p ++ [".."]
    else p.dropLast
  else p ++ [part]

/-- How many bytes a name may have. -/
def maxName : Nat := 255

/-- How many bytes a path may have. -/
def maxPath : Nat := 4095

/-- A path that the system takes: whether it leads anywhere is another question. -/
def checkPath (path : String) : Except FileFault Unit :=
  if '\u0000' ∈ path.toList then .error .nameWithNul
  else if maxPath < path.utf8ByteSize then .error .nameTooLong
  else .ok ()

def checkName (name : String) : Except FileFault Unit :=
  if maxName < name.utf8ByteSize then .error .nameTooLong else .ok ()

/-- A step starts in a folder. -/
def step (d : Directory) (p : Place) (part : String) : Except FileFault Place :=
  if d.isFolder p then (checkName part).map fun _ => next p part
  else if d.isFile p then .error .notFolder
  else .error .missing

/-- Where a path starts. -/
def start (path : String) : Place := if Path.isAbsolute path then ["/"] else []

/-- The place that a path leads to. Nothing needs to be there. -/
def place (d : Directory) (path : String) : Except FileFault Place := do
  checkPath path
  if path.isEmpty then throw .missing
  (path.splitOn "/").foldlM d.step (start path)

def exists? (d : Directory) (path : String) : Bool :=
  match d.place path with
  | .ok p => d.isFolder p || d.isFile p
  | .error _ => false

/-- The text of a file. -/
def read (d : Directory) (path : String) : Except FileFault String := do
  let p ← d.place path
  if d.isFolder p then throw .isFolder
  match d.files.lookup p with
  | some text => return text
  | none => throw .missing

/-- Writes a text into a file, which need not be there yet. -/
def write (d : Directory) (path text : String) : Except FileFault Directory := do
  let p ← d.place path
  if d.isFolder p then throw .isFolder
  return { d with files := (p, text) :: d.files.filter (·.1 != p) }

/-- Makes the folders on a way that are not there yet. A file may not be in the way. -/
def makeFoldersFrom (d : Directory) (p : Place) : List String → Except FileFault Directory
  | [] => .ok d
  | part :: parts => do
    checkName part
    let p := next p part
    if d.isFolder p then makeFoldersFrom d p parts
    else if d.isFile p then .error (if parts.isEmpty then .occupied else .notFolder)
    else makeFoldersFrom { d with folders := p :: d.folders } p parts

/-- Makes a folder and those above it, as far as they are not there yet. -/
def makeFolders (d : Directory) (path : String) : Except FileFault Directory := do
  checkPath path
  d.makeFoldersFrom (start path) (path.splitOn "/")

/-- A directory with one more file and the folders that it is in. -/
def add (d : Directory) (path text : String) : Except FileFault Directory := do
  (← d.makeFolders (Path.parent path)).write path text

/-- The path of a place. -/
def pathOf : Place → String
  | "/" :: names => "/" ++ "/".intercalate names
  | names => "/".intercalate names

/-- The files that are new or have another text than before, with their paths. -/
def changes (before after : Directory) : List (String × String) :=
  after.files.filterMap fun (p, text) =>
    if before.files.lookup p = some text then none else some (pathOf p, text)

/-- The files that were not there before, with their paths. -/
def created (before after : Directory) : List (String × String) :=
  after.files.filterMap fun (p, text) =>
    if before.isFile p then none else some (pathOf p, text)

end Directory

end Thrift.Cli
