-- The command line: options of the program and of its commands, in the form of long names, or of
-- letters that a value may follow at once.

namespace Thrift.Cli

/-! ## Commands -/

inductive Command
  | generate (documents : List String) (out : Option String)
  | check (documents : List String)
  | inspect (document : String) (definition : Option String)
deriving DecidableEq

structure Invocation where
  /-- The path of the settings file, which need not be there. -/
  config : String
  command : Command
deriving DecidableEq

/-- What the arguments ask for. -/
inductive Request
  | help
  | version
  | run (invocation : Invocation)
deriving DecidableEq

/-- Why arguments are refused. -/
inductive UsageFault
  | unknownOption (option : String)
  | unknownCommand (name : String)
  | unexpected (argument : String)
  | unexpectedValue (option : String)
  | noValue (option : String)
  | emptyPath (option : String)
  | repeated (option : String)
  | noDocument
deriving DecidableEq

def UsageFault.message : UsageFault → String
  | unknownOption option => s!"unknown option '{option}'"
  | unknownCommand name => s!"unknown command '{name}'"
  | unexpected argument => s!"unexpected argument '{argument}'"
  | unexpectedValue option => s!"option '{option}' takes no value"
  | noValue option => s!"option '{option}' needs a value"
  | emptyPath option => s!"'{option}' needs a path that is not empty"
  | repeated option => s!"option '{option}' is given more than once"
  | noDocument => "no document is given"

/-! ## Options -/

/-- An option with a value. -/
inductive Setting
  | config
  | out
  | definition
deriving DecidableEq

/-- An option without a value. -/
inductive Switch
  /-- Asks for more in the log. A run leaves no log. -/
  | verbose
  /-- Asks for the log in another form. -/
  | jsonLogs
  | help
  | version
deriving DecidableEq

def Setting.long : Setting → String
  | config => "config"
  | out => "out"
  | definition => "definition"

def Setting.letter : Setting → Char
  | config => 'c'
  | out => 'o'
  | definition => 'd'

/-- A path is not empty; other values may be. -/
def Setting.takes (s : Setting) (value : String) : Bool := s ≠ .out || !value.isEmpty

def Switch.long : Switch → String
  | verbose => "verbose"
  | jsonLogs => "json-logs"
  | help => "help"
  | version => "version"

/-- Only the switches that end the reading have letters. -/
def Switch.letter : Switch → Option Char
  | help => some 'h'
  | version => some 'V'
  | _ => none

/-- How many arguments besides options a level takes. -/
inductive Operands
  /-- The first one names a command, which takes all that follow. -/
  | command
  | one
  | many
deriving DecidableEq

/-- What may be said at a level of the command line: before the command, or after it. -/
structure Level where
  settings : List Setting
  switches : List Switch
  operands : Operands

def Level.program : Level := ⟨[.config], [.verbose, .jsonLogs, .help, .version], .command⟩
def Level.generate : Level := ⟨[.config, .out], [.verbose, .jsonLogs, .help], .many⟩
def Level.check : Level := ⟨[.config], [.verbose, .jsonLogs, .help], .many⟩
def Level.inspect : Level := ⟨[.config, .definition], [.verbose, .jsonLogs, .help], .one⟩

/-! ## Arguments -/

/-- What one argument is by its first characters. -/
inductive Argument
  | long (name : String) (value : Option String)
  | short (letter : Char) (more : List Char)
  /-- Two dashes, after which all arguments are operands. -/
  | divider
  | operand (text : String)
deriving DecidableEq

namespace Argument

/-- A name, and the value behind an equals sign. -/
def longOf (cs : List Char) : Argument :=
  let name := String.ofList (cs.takeWhile (· != '='))
  match cs.dropWhile (· != '=') with
  | [] => long name none
  | _ :: value => long name (some (String.ofList value))

def ofText (text : String) : Argument :=
  match text.toList with
  | ['-', '-'] => divider
  | '-' :: '-' :: cs => longOf cs
  | '-' :: c :: cs => short c cs
  | _ => operand text

/-- The value behind a letter, with or without an equals sign. -/
def attached : List Char → Option String
  | [] => none
  | '=' :: cs => some (String.ofList cs)
  | cs => some (String.ofList cs)

end Argument

/-- What a level was given so far. -/
structure Given where
  settings : List (Setting × String)
  switches : List Switch
  operands : List String

/-- What ends the reading before the end of the arguments. -/
inductive Stop
  | help
  | version
  | misuse (fault : UsageFault)

def misuse {α : Type} (fault : UsageFault) : Except Stop α := .error (.misuse fault)

namespace Given

def empty : Given := ⟨[], [], []⟩

/-- Gives an option its value. -/
def set (g : Given) (s : Setting) (value : String) : Except Stop Given :=
  if (g.settings.lookup s).isSome then misuse (.repeated s.long)
  else if s.takes value then .ok { g with settings := g.settings ++ [(s, value)] }
  else misuse (.emptyPath s.long)

/-- Turns a switch on. Help and version end the reading. -/
def turnOn (g : Given) (s : Switch) : Except Stop Given :=
  match s with
  | .help => .error .help
  | .version => .error .version
  | s =>
    if s ∈ g.switches then misuse (.repeated s.long)
    else .ok { g with switches := g.switches ++ [s] }

/-- Adds an operand, which is the path of a document. -/
def addOperand (g : Given) (level : Level) (text : String) : Except Stop Given :=
  if level.operands = .one && !g.operands.isEmpty then misuse (.unexpected text)
  else if text.isEmpty then misuse (.emptyPath text)
  else .ok { g with operands := g.operands ++ [text] }

end Given

namespace Level

def setting? (level : Level) (p : Setting → Bool) : Option Setting := level.settings.find? p

def switch? (level : Level) (p : Switch → Bool) : Option Switch := level.switches.find? p

/-- An argument that may be the value of the option before it. -/
def isValue (text : String) : Bool :=
  match Argument.ofText text with
  | .operand _ => true
  | _ => false

/-- All arguments after a divider are operands. Before the command there are none. -/
def takeOperands (level : Level) (g : Given) (args : List String) : Except Stop Given :=
  match level.operands, args with
  | .command, arg :: _ => misuse (.unexpected arg)
  | _, args => args.foldlM (fun g arg => g.addOperand level arg) g

/-- Reads the arguments of a level. A level before a command leaves the command's name and all
that follows it. -/
def read (level : Level) (g : Given) : List String → Except Stop (Given × List String)
  | [] => .ok (g, [])
  | arg :: args =>
    match Argument.ofText arg with
    | .divider => do return (← level.takeOperands g args, [])
    | .operand text =>
      if level.operands = .command then .ok (g, arg :: args)
      else do read level (← g.addOperand level text) args
    | .long name value =>
      match level.setting? (·.long = name), value, args with
      | some s, some v, args => do read level (← g.set s v) args
      | some s, none, v :: args =>
        if isValue v then do read level (← g.set s v) args else misuse (.noValue arg)
      | some _, none, [] => misuse (.noValue arg)
      | none, value, args =>
        match level.switch? (·.long = name), value with
        | some s, none => do read level (← g.turnOn s) args
        | some _, some _ => misuse (.unexpectedValue name)
        | none, _ => misuse (.unknownOption arg)
    | .short letter more =>
      match level.setting? (·.letter = letter), Argument.attached more, args with
      | some s, some v, args => do read level (← g.set s v) args
      | some s, none, v :: args =>
        if isValue v then do read level (← g.set s v) args else misuse (.noValue arg)
      | some _, none, [] => misuse (.noValue arg)
      | none, _, args =>
        match level.switch? (·.letter = some letter) with
        | some s => do read level (← g.turnOn s) args
        | none => misuse (.unknownOption arg)

end Level

/-! ## Requests -/

def commandNames : List String := ["generate", "check", "inspect", "help"]

/-- Help may be asked for a command. -/
def readHelp : List String → Except Stop Request
  | [] => .ok .help
  | [name] => if name ∈ commandNames then .ok .help else misuse (.unknownCommand name)
  | name :: _ => misuse (.unknownCommand name)

/-- The settings file, which is named before or after the command. The later one counts. -/
def configPath (program command : Given) : String :=
  ((command.settings.lookup .config).or (program.settings.lookup .config)).getD "thriftc.toml"

/-- Reads what follows a command's name. -/
def readCommand (program : Given) (level : Level)
    (make : Given → Except Stop Command) (args : List String) : Except Stop Request := do
  let (g, _) ← level.read .empty args
  return .run ⟨configPath program g, ← make g⟩

def generateOf (g : Given) : Except Stop Command :=
  if g.operands.isEmpty then misuse .noDocument
  else .ok (.generate g.operands (g.settings.lookup .out))

def checkOf (g : Given) : Except Stop Command :=
  if g.operands.isEmpty then misuse .noDocument else .ok (.check g.operands)

def inspectOf (g : Given) : Except Stop Command :=
  match g.operands with
  | document :: _ => .ok (.inspect document (g.settings.lookup .definition))
  | [] => misuse .noDocument

/-- Reads all arguments. Without a command they ask for help. -/
def readArguments (args : List String) : Except Stop Request := do
  let (program, rest) ← Level.program.read .empty args
  match rest with
  | [] => return .help
  | name :: args =>
    if name = "generate" then readCommand program .generate generateOf args
    else if name = "check" then readCommand program .check checkOf args
    else if name = "inspect" then readCommand program .inspect inspectOf args
    else if name = "help" then readHelp args
    else misuse (.unknownCommand name)

/-- What the arguments ask for, unless they are misused. -/
def Request.ofArguments (args : List String) : Except UsageFault Request :=
  match readArguments args with
  | .ok request => .ok request
  | .error .help => .ok .help
  | .error .version => .ok .version
  | .error (.misuse fault) => .error fault

end Thrift.Cli
