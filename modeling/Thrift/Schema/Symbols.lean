-- The definitions of a document and its includes under their names, and what an identifier
-- stands for. Typedefs are followed here, so that no one else has to.
import Thrift.Schema.Document
import Thrift.Schema.Names
import Thrift.Schema.Suggestion

namespace Thrift

/-! ## Faults -/

/-- What a name stands for when it stands for no type. -/
inductive NonType
  | value
  | service
deriving DecidableEq, Repr

def NonType.word : NonType → String
  | value => "value"
  | service => "service"

inductive ResolveError
  | typeMisuse (name : String) (role : NonType)
  | unknownIdentifier (name : String) (suggestions : List Suggestion)
  | duplicateDefinition (name : String)
  | typedefCycle (chain : List String)
  | unknownEnumMember (reference : String)
deriving DecidableEq

def ResolveError.message : ResolveError → String
  | typeMisuse name role => s!"Identifier {name} is a {role.word} being used as a type"
  | unknownIdentifier name (nearest :: _) =>
    s!"Unknown identifier '{name}'. Did you mean: {nearest.candidate}?"
  | unknownIdentifier name [] => s!"Unknown identifier '{name}'"
  | duplicateDefinition name => s!"Definition {name} is declared more than once"
  | typedefCycle chain => "Typedef cycle detected: " ++ " -> ".intercalate chain
  | unknownEnumMember reference => s!"Unknown enum member {reference}"

/-! ## Definitions -/

inductive Definition
  | structLike (kind : StructKind) (definition : StructLike)
  | enumeration (definition : Enumeration)
  | typedef (definition : Typedef)
  | constant (definition : Constant)
  | service (definition : Service)

def Definition.name : Definition → String
  | structLike _ d => d.name
  | enumeration d => d.name
  | typedef d => d.name
  | constant d => d.name
  | service d => d.name

/-- What a statement defines. -/
def Statement.definition? : Statement → Option Definition
  | namespaceLine _ | includeLine _ => none
  | constant d => some (.constant d)
  | structLike kind d => some (.structLike kind d)
  | enumeration d => some (.enumeration d)
  | typedef d => some (.typedef d)
  | service d => some (.service d)

/-- What an identifier stands for. The underlying type of a typedef is no typedef again. -/
inductive Resolved
  | structLike (kind : StructKind) (definition : StructLike)
  | enumeration (definition : Enumeration)
  | typedef (definition : Typedef) (underlying : FieldType)
  | constant (definition : Constant)
  | service (definition : Service)

def Resolved.name : Resolved → String
  | structLike _ d => d.name
  | enumeration d => d.name
  | typedef d _ => d.name
  | constant d => d.name
  | service d => d.name

/-! ## The table -/

/-- All definitions in the order in which they were met. -/
structure SymbolTable where
  definitions : List Definition

namespace SymbolTable

def names (t : SymbolTable) : List String := t.definitions.map (·.name)

def size (t : SymbolTable) : Nat := t.definitions.length

/-- The definition of exactly this name. -/
def find? (t : SymbolTable) (name : String) : Option Definition :=
  t.definitions.find? (·.name == name)

/-- The definition of exactly this name, else of its last segment. -/
def lookup (t : SymbolTable) (name : String) : Option Definition :=
  (t.find? name).or (t.find? (baseName name))

/-- The typedef that an identifier names. -/
def typedef? (t : SymbolTable) (name : String) : Option Typedef :=
  match t.lookup name with
  | some (.typedef d) => some d
  | _ => none

/-- How many edits may lie between an unknown name and one that is offered for it. -/
def nearness : Nat := 3

/-- An unknown name, with the names near it; of equally near ones the smaller comes first. -/
def unknown (t : SymbolTable) (name : String) : ResolveError :=
  let candidates := t.names.mergeSort fun a b => decide (a ≤ b)
  .unknownIdentifier name (Suggestion.near name candidates nearness)

/-! ## Typedef cycles -/

/-- A cycle is told from its smallest name on and ends where it starts. -/
def tellCycle (cycle : List String) : List String :=
  let first := cycle.foldl (fun a b => if b < a then b else a) (cycle.headD "")
  let later := cycle.dropWhile (· != first)
  let earlier := cycle.takeWhile (· != first)
  later ++ earlier ++ [first]

/-- A cycle of typedefs that the type leads into. `path` holds the typedefs on the way, the last
one first; the first argument bounds their number. -/
def cycleBelow (t : SymbolTable) : Nat → List String → FieldType → Option (List String)
  | 0, _, _ => none
  | levels + 1, path, type =>
    type.mentions.findSome? fun name =>
      match t.typedef? name with
      | none => none
      | some next =>
        if next.name ∈ path then
          some (tellCycle (next.name :: (path.takeWhile (· != next.name)).reverse))
        else t.cycleBelow levels (next.name :: path) next.type

/-- A cycle among the typedefs of the table. -/
def cycle? (t : SymbolTable) : Option (List String) :=
  t.definitions.findSome? fun
    | .typedef d => t.cycleBelow (t.size + 1) [d.name] d.type
    | _ => none

/-! ## Building -/

/-- Adds definitions in order; a name may be defined once. -/
def extend (t : SymbolTable) : List Definition → Except ResolveError SymbolTable
  | [] => .ok t
  | d :: ds =>
    if (t.find? d.name).isSome then .error (.duplicateDefinition d.name)
    else extend ⟨t.definitions ++ [d]⟩ ds

/-- The definitions of several documents in one table. -/
def ofDocuments (documents : List Document) : Except ResolveError SymbolTable := do
  let t ← extend ⟨[]⟩ (documents.flatMap (·.body.filterMap (·.definition?)))
  match t.cycle? with
  | some chain => throw (.typedefCycle chain)
  | none => return t

def ofDocument (d : Document) : Except ResolveError SymbolTable := ofDocuments [d]

/-! ## Resolving -/

/-- The first type along a chain of typedefs that names no typedef. `passed` holds the typedefs
passed, the last one first; the first argument bounds their number. -/
def follow (t : SymbolTable) : Nat → List String → FieldType → Except ResolveError FieldType
  | 0, passed, _ => .error (.typedefCycle passed.reverse)
  | levels + 1, passed, type =>
    match type with
    | .identifier name =>
      match t.typedef? name with
      | none => .ok type
      | some next =>
        if next.name ∈ passed then .error (.typedefCycle (next.name :: passed).reverse)
        else t.follow levels (next.name :: passed) next.type
    | _ => .ok type

/-- The type that a typedef stands for in the end. -/
def underlying (t : SymbolTable) (d : Typedef) : Except ResolveError FieldType :=
  t.follow (t.size + 1) [d.name] d.type

/-- What an identifier stands for. -/
def resolve (t : SymbolTable) (name : String) : Except ResolveError Resolved :=
  match t.lookup name with
  | none => .error (t.unknown name)
  | some (.structLike kind d) => .ok (.structLike kind d)
  | some (.enumeration d) => .ok (.enumeration d)
  | some (.typedef d) => (t.underlying d).map (.typedef d)
  | some (.constant d) => .ok (.constant d)
  | some (.service d) => .ok (.service d)

/-- What an identifier stands for in the place of a type. -/
def resolveType (t : SymbolTable) (name : String) : Except ResolveError Resolved := do
  match ← t.resolve name with
  | .constant d => throw (.typeMisuse d.name .value)
  | .service d => throw (.typeMisuse d.name .service)
  | resolved => return resolved

def structLike? (t : SymbolTable) (name : String) : Option (StructKind × StructLike) :=
  match t.lookup name with
  | some (.structLike kind d) => some (kind, d)
  | _ => none

def service (t : SymbolTable) (name : String) : Except ResolveError Service :=
  match t.lookup name with
  | some (.service d) => .ok d
  | _ => .error (t.unknown name)

/-- The value of a reference to the member of an enum. The first member of the name counts. -/
def enumMember (t : SymbolTable) (reference : String) : Except ResolveError Int32 :=
  match splitLast reference with
  | none => .error (.unknownEnumMember reference)
  | some (enum, member) =>
    match t.lookup enum with
    | some (.enumeration d) =>
      match d.memberValues.lookup member with
      | some value => .ok value
      | none => .error (.unknownEnumMember reference)
    | _ => .error (.unknownEnumMember reference)

end SymbolTable

end Thrift
