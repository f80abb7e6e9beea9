-- The program: reads the files that the arguments name, runs, and writes what changed.
import Thrift.Cli.Run

namespace Thrift.Cli

/-- The paths that a request may read. -/
def Request.paths : Request → List String
  | .run ⟨config, .generate documents _⟩ => config :: documents
  | .run ⟨_, .check documents⟩ => documents
  | .run ⟨_, .inspect document _⟩ => [document]
  | _ => []

/-- What a path leads to. -/
inductive Found
  | nothing
  | folder
  | file (text : String)

def lookAt (path : String) : IO Found := do
  try return .file (← IO.FS.readFile path)
  catch
    | .noFileOrDirectory .. => return .nothing
    | .inappropriateType _ 21 _ => return .folder
    | .invalidArgument _ 36 _ => return .nothing
    | e => throw e

/-- A directory with what one more path leads to. -/
def Directory.addFound (d : Directory) (path : String) : Found → Except FileFault Directory
  | .nothing => .ok d
  | .folder => d.makeFolders path
  | .file text => d.add path text

/-- The directory as far as the paths show it. -/
def snapshot (paths : List String) : IO Directory :=
  paths.foldlM (fun d path => do
    match d.addFound path (← lookAt path) with
    | .ok d => return d
    | .error cause => throw (IO.userError s!"{path}: {cause.message}")) .empty

/-- Brings the files up to date. -/
def store (before after : Directory) : IO Unit :=
  (before.changes after).forM fun (path, text) => do
    IO.FS.createDirAll (Path.parent path)
    IO.FS.writeFile path text

/-- Runs the program on the files around it. -/
def perform (args : List String) : IO UInt32 := do
  let paths := match Request.ofArguments args with
    | .ok request => request.paths
    | .error _ => []
  let before ← snapshot paths
  let outcome := run args before
  store before outcome.directory
  IO.print outcome.stdout
  IO.eprint outcome.stderr
  return outcome.exitCode

end Thrift.Cli

def main (args : List String) : IO UInt32 := do
  try Thrift.Cli.perform args
  catch e =>
    IO.eprintln s!"Error: {e}"
    return 1
