-- Where the output for a document goes, by its namespace lines.
import Thrift.Schema.Document
import Thrift.Schema.Names
import Thrift.Schema.Path

namespace Thrift

/-- The namespace chosen for a document's output, and the file it is written to. -/
structure Namespace where
  scope : String
  name : String
  path : String
deriving DecidableEq, Repr

namespace Namespace

/-- The directory is named after the last segment of the namespace. -/
def filePath (outDir name stem : String) : String :=
  Path.join (Path.join outDir (baseName name)) (stem ++ ".ts")

/-- The last line of a scope counts. -/
def lineOf (d : Document) (scope : String) : Option NamespaceLine :=
  d.namespaces.reverse.find? (·.scope == scope)

/-- The scope `js` comes before `java`. Without both the output is the index file of the output
directory. -/
def ofDocument (outDir : String) (d : Document) (stem : String) : Namespace :=
  match (lineOf d "js").or (lineOf d "java") with
  | some line => ⟨line.scope, line.name, filePath outDir line.name stem⟩
  | none => ⟨"", "", filePath outDir "" "index"⟩

end Namespace

end Thrift
