-- The settings file. Every setting has a default, and the command line goes before the file.
import Thrift.Script.File
import Thrift.Text.Space
import Thrift.Toml.Reader

namespace Thrift.Cli

structure Config where
  outputDir : String := "./generated"
  /-- The module that scripts import as `thrift`. -/
  runtime : Option String := none
  indent : Option Nat := none
deriving DecidableEq

inductive ConfigFault
  | malformed
  | noOutputDir
  | noRuntime
deriving DecidableEq

namespace Config

/-! ## Reading -/

def stringOf : Toml → Option String
  | .string s => some s
  | _ => none

def countOf : Toml → Option Nat
  | .integer n => if n < 0 then none else some n.toInt.toNat
  | _ => none

/-- A setting that may be left out. -/
def optional {α : Type} (read : Toml → Option α) : Option Toml → Option (Option α)
  | none => some none
  | some v => (read v).map some

/-- The settings of a section that is written as a table or as an array of its values. An array
names no settings, so the first `needed` of them must be there; more values than settings do
no harm. A date is a section without settings. -/
def slots (names : List String) (needed : Nat) : Toml → Option (List (Option Toml))
  | .table members => some (names.map fun name => members.lookup name)
  | .array items =>
    if items.length < needed then none
    else some ((items.take names.length).map some ++
      List.replicate (names.length - items.length) none)
  | .date => some (names.map fun _ => none)
  | _ => none

def readOutput (c : Config) (values : Toml) : Option Config := do
  match ← slots ["dir"] 0 values with
  | [dir] => return { c with outputDir := (← optional stringOf dir).getD c.outputDir }
  | _ => none

def readScript (c : Config) (values : Toml) : Option Config := do
  match ← slots ["thrift_import", "indent"] 2 values with
  | [runtime, indent] =>
    return { c with runtime := ← optional stringOf runtime, indent := ← optional countOf indent }
  | _ => none

/-- Reads a section into the settings if it is there. -/
def readSection (root : List (String × Toml)) (name : String)
    (read : Config → Toml → Option Config) (c : Config) : Option Config :=
  match root.lookup name with
  | some s => read c s
  | none => some c

def ofToml (root : List (String × Toml)) : Option Config := do
  readSection root "typescript" readScript (← readSection root "output" readOutput {})

/-! ## Validation -/

def isEmptyText (s : String) : Bool := s.toList.all Text.isSpace

/-- Texts that only seem to name something are refused. -/
def validate (c : Config) : Except ConfigFault Config :=
  if isEmptyText c.outputDir then .error .noOutputDir
  else match c.runtime with
    | some runtime => if isEmptyText runtime then .error .noRuntime else .ok c
    | none => .ok c

/-- The settings that a text holds. -/
def ofText (s : String) : Except ConfigFault Config :=
  match (Toml.ofText s).bind ofToml with
  | some c => c.validate
  | none => .error .malformed

/-! ## Use -/

/-- The output directory, unless the command line names one. -/
def outputTo (c : Config) (override : Option String) : String := override.getD c.outputDir

/-- The settings of scripts, with defaults where the file says nothing. -/
def scriptSettings (c : Config) : Script.Settings :=
  let standard : Script.Settings := {}
  ⟨c.runtime.getD standard.runtime, c.indent.getD standard.indent⟩

end Config

/-- The text for a fault of the settings file that a path leads to. -/
def ConfigFault.message (path : String) : ConfigFault → String
  | malformed => "Failed to parse config file: " ++ path
  | noOutputDir => "[output] dir cannot be empty"
  | noRuntime => "[typescript] thrift_import cannot be empty"

end Thrift.Cli
