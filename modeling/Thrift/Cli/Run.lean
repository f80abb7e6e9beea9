-- Commands as functions of the directory they run in.
import Thrift.Cli.Config
import Thrift.Cli.Directory
import Thrift.Cli.Options
import Thrift.Codec.Json
import Thrift.Json.Printer
import Thrift.Schema.Json
import Thrift.Schema.Namespace
import Thrift.Schema.Suggestion

namespace Thrift.Cli

/-! ## Faults -/

inductive RunFault
  | configUnreadable (path : String) (cause : FileFault)
  | configRefused (path : String) (cause : ConfigFault)
  | documentUnreadable (path : String) (cause : FileFault)
  | documentRefused (path : String)
  | notCompiled (path : String) (cause : CodegenError)
  | notRendered (path : String) (cause : CodegenError)
  | folderNotMade (path : String) (cause : FileFault)
  | fileNotWritten (path : String) (cause : FileFault)
  | notAllCompiled (failures documents : Nat)
  | noDefinition (name : String) (similar : Option String)
deriving DecidableEq

/-- A fault with its causes. The reason why a document cannot be read stands twice, as part of
the cause and as the cause of it. -/
def RunFault.message : RunFault → String
  | configUnreadable path cause => s!"Failed to read config file: {path}: {cause.message}"
  | configRefused path cause => cause.message path
  | documentUnreadable path cause =>
    s!"Failed to load document {path}: Failed to read document {path}: {cause.message}: " ++
      cause.message
  | documentRefused path => s!"Failed to load document {path}: Failed to parse document JSON"
  | notCompiled path cause => s!"Failed to compile {path}: {cause.message}"
  | notRendered path cause => s!"Failed to render TypeScript for {path}: {cause.message}"
  | folderNotMade path cause => s!"Failed to create directory: {path}: {cause.message}"
  | fileNotWritten path cause => s!"Failed to write {path}: {cause.message}"
  | notAllCompiled failures documents =>
    s!"{failures} of {documents} document(s) failed to compile"
  | noDefinition name (some similar) =>
    s!"No struct or service named '{name}'. Did you mean: {similar}?"
  | noDefinition name none => s!"No struct or service named '{name}'"

/-! ## Parts of commands -/

/-- What a command changes: the directory, and the lines it has said. -/
structure World where
  directory : Directory
  said : List String

abbrev Running := EStateM RunFault World

def say (line : String) : Running Unit := modify fun w => { w with said := w.said ++ [line] }

/-- The document in a file. -/
def load (d : Directory) (path : String) : Except RunFault Document :=
  match d.read path with
  | .error cause => .error (.documentUnreadable path cause)
  | .ok text =>
    match Document.ofText text with
    | .error _ => .error (.documentRefused path)
    | .ok document => .ok document

/-- The settings in a file, or the default ones if there is no file. -/
def loadConfig (d : Directory) (path : String) : Except RunFault Config :=
  if d.exists? path then
    match d.read path with
    | .error cause => .error (.configUnreadable path cause)
    | .ok text => (Config.ofText text).mapError (.configRefused path)
  else .ok {}

def compileDocument (path : String) (document : Document) : Except RunFault Compiled :=
  document.compile.mapError (.notCompiled path)

/-- Writes a file and the folders above it. -/
def writeFile (path text : String) : Running Unit := do
  let w ← get
  match w.directory.makeFolders (Path.parent path) with
  | .error cause => throw (.folderNotMade (Path.parent path) cause)
  | .ok d =>
    match d.write path text with
    | .error cause => throw (.fileNotWritten path cause)
    | .ok d => set { w with directory := d }

/-- What a document holds. -/
def tally (c : Compiled) : String :=
  s!"({c.structs.length} struct(s), {c.services.length} service(s))"

/-! ## Commands -/

/-- Writes the script for one document. -/
def generateOne (settings : Script.Settings) (outDir path : String) : Running Unit := do
  say s!"→ Compiling {path}..."
  let document ← MonadExcept.ofExcept (load (← get).directory path)
  let compiled ← MonadExcept.ofExcept (compileDocument path document)
  let target := (Namespace.ofDocument outDir document ((Path.fileStem path).getD "index")).path
  match Script.file settings document compiled with
  | .error cause => throw (.notRendered path cause)
  | .ok text => writeFile target text
  say s!"  ✓ {target} {tally compiled}"

def generate (configPath : String) (documents : List String) (out : Option String) :
    Running Unit := do
  let config ← MonadExcept.ofExcept (loadConfig (← get).directory configPath)
  let outDir := config.outputTo out
  documents.forM (generateOne config.scriptSettings outDir)
  say s!"✓ Generated {documents.length} file(s) in {outDir}"

/-- What a check finds out about one document, a fault without the path. -/
def checkOne (d : Directory) (path : String) : Except String Compiled := do
  let document ← (load d path).mapError RunFault.message
  document.compile.mapError CodegenError.message

def checkLine (path : String) : Except String Compiled → String
  | .ok c => s!"  ✓ {path} {tally c}"
  | .error message => s!"  ✗ {path}: {message}"

/-- Goes over all documents, faulty ones too. -/
def check (documents : List String) : Running Unit := do
  let d := (← get).directory
  let findings := documents.map fun path => (path, checkOne d path)
  findings.forM fun (path, finding) => say (checkLine path finding)
  let failures := (findings.filter fun (_, finding) => !finding.isOk).length
  if failures > 0 then throw (.notAllCompiled failures documents.length)
  say "✓ All documents compiled"

/-- The part of a compiled document that a name picks out, structs first. -/
def part (c : Compiled) (name : String) : Except RunFault Json :=
  match c.struct? name, c.service? name with
  | some s, _ => .ok s.toJson
  | none, some s => .ok s.toJson
  | none, none =>
    let names := c.structs.map (·.name) ++ c.services.map (·.name)
    .error (.noDefinition name ((Suggestion.near name names 3).head?.map (·.candidate)))

/-- Shows the procedures of a document, or of one of its definitions. -/
def inspect (path : String) (definition : Option String) : Running Unit := do
  let document ← MonadExcept.ofExcept (load (← get).directory path)
  let compiled ← MonadExcept.ofExcept (compileDocument path document)
  match definition with
  | none => say (compiled.toJson.pretty 0)
  | some name => say ((← MonadExcept.ofExcept (part compiled name)).pretty 0)

def Invocation.perform (i : Invocation) : Running Unit :=
  match i.command with
  | .generate documents out => generate i.config documents out
  | .check documents => check documents
  | .inspect document definition => inspect document definition

/-! ## Runs -/

/-- What a run leaves behind. -/
structure Outcome where
  exitCode : UInt32
  stdout : String
  stderr : String
  directory : Directory

def versionLine : String := "thriftc 0.1.0"

def usage : List String := [
  "Thrift codec compiler - generate binary-protocol codecs from parsed documents",
  "",
  "Usage: thriftc [OPTIONS] [COMMAND]",
  "",
  "Commands:",
  "  generate  Compile documents and write TypeScript codecs",
  "  check     Compile documents without writing any output",
  "  inspect   Print the compiled codec IR as JSON",
  "",
  "Options:",
  "  -c, --config <CONFIG>  Path to thriftc.toml configuration file",
  "      --verbose          Enable verbose output",
  "      --json-logs        Emit logs as JSON lines",
  "  -h, --help             Print help",
  "  -V, --version          Print version"]

/-- Lines as text, each with its end. -/
def textOf (lines : List String) : String := String.join (lines.map (· ++ "\n"))

def answer (request : Request) (d : Directory) : Outcome :=
  match request with
  | .help => ⟨0, textOf usage, "", d⟩
  | .version => ⟨0, textOf [versionLine], "", d⟩
  | .run invocation =>
    match invocation.perform.run ⟨d, []⟩ with
    | .ok _ w => ⟨0, textOf w.said, "", w.directory⟩
    | .error fault w => ⟨1, textOf w.said, textOf ["Error: " ++ fault.message], w.directory⟩

/-- Runs the program. -/
def run (args : List String) (d : Directory) : Outcome :=
  match Request.ofArguments args with
  | .ok request => answer request d
  | .error fault => ⟨2, "", textOf ["error: " ++ fault.message], d⟩

end Thrift.Cli
