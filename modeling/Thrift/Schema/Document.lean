-- Interface documents: types, literals and the statements that define structs, enums,
-- typedefs, constants and services.
import Thrift.Number.Double

namespace Thrift

/-! ## Types -/

/-- The type of a field, an argument or a return slot. -/
inductive FieldType
  | bool
  | byte
  | i8
  | i16
  | i32
  | i64
  | double
  | string
  | binary
  | list (element : FieldType)
  | set (element : FieldType)
  | map (key value : FieldType)
  | identifier (name : String)
  | void
deriving DecidableEq, Inhabited, Repr

namespace FieldType

/-- The spelling of a type in an interface file. -/
def displayName : FieldType → String
  | bool => "bool"
  | byte => "byte"
  | i8 => "i8"
  | i16 => "i16"
  | i32 => "i32"
  | i64 => "i64"
  | double => "double"
  | string => "string"
  | binary => "binary"
  | list element => "list<" ++ element.displayName ++ ">"
  | set element => "set<" ++ element.displayName ++ ">"
  | map key value => "map<" ++ key.displayName ++ "," ++ value.displayName ++ ">"
  | identifier name => name
  | void => "void"

/-- The identifiers that a type mentions at any depth, left to right. -/
def mentions : FieldType → List String
  | list element => element.mentions
  | set element => element.mentions
  | map key value => key.mentions ++ value.mentions
  | identifier name => [name]
  | _ => []

end FieldType

/-! ## Literals -/

/-- The value of a constant or the default of a field, as written. -/
inductive Literal
  | int (n : Int64)
  | double (x : Double)
  | bool (b : Bool)
  | string (s : String)
  | list (items : List Literal)
  | map (entries : List (Literal × Literal))
  | identifier (reference : String)
deriving Inhabited

/-- What kind of literal it is. -/
def Literal.kind : Literal → String
  | int _ => "int"
  | double _ => "double"
  | bool _ => "bool"
  | string _ => "string"
  | list _ => "list"
  | map _ => "map"
  | identifier _ => "identifier"

/-! ## Definitions -/

inductive StructKind
  | struct
  | union
  | exception
deriving DecidableEq, Repr

def StructKind.word : StructKind → String
  | struct => "struct"
  | union => "union"
  | exception => "exception"

inductive Requiredness
  | required
  | optional
  | default
deriving DecidableEq, Repr

def Requiredness.word : Requiredness → String
  | required => "required"
  | optional => "optional"
  | default => "default"

/-- A field of a struct or an argument of a function. The id is absent where the interface
file gives none; the line serves diagnostics. -/
structure Field where
  name : String
  id : Option Int16
  type : FieldType
  requiredness : Requiredness
  default : Option Literal
  line : Option UInt32

/-- A struct, union or exception. -/
structure StructLike where
  name : String
  fields : List Field

def StructLike.hasRequiredField (s : StructLike) : Bool :=
  s.fields.any (·.requiredness == .required)

structure EnumMember where
  name : String
  initializer : Option Int32

structure Enumeration where
  name : String
  members : List EnumMember

/-- The members with their values. A member without an initializer has the value after the
one before it, which wraps around at the largest, and the first such member has zero. -/
def memberValuesFrom (next : Int32) : List EnumMember → List (String × Int32)
  | [] => []
  | m :: ms =>
    let value := m.initializer.getD next
    (m.name, value) :: memberValuesFrom (value + 1) ms

def Enumeration.memberValues (e : Enumeration) : List (String × Int32) :=
  memberValuesFrom 0 e.members

structure Typedef where
  name : String
  type : FieldType

structure Constant where
  name : String
  type : FieldType
  value : Literal

structure Function where
  name : String
  returnType : FieldType
  fields : List Field
  throws : List Field
  oneway : Bool

structure Service where
  name : String
  parent : Option String
  functions : List Function

structure NamespaceLine where
  scope : String
  name : String
deriving DecidableEq

/-! ## Documents -/

inductive Statement
  | namespaceLine (line : NamespaceLine)
  | includeLine (path : String)
  | constant (definition : Constant)
  | structLike (kind : StructKind) (definition : StructLike)
  | enumeration (definition : Enumeration)
  | typedef (definition : Typedef)
  | service (definition : Service)

/-- The name that a statement defines. -/
def Statement.name? : Statement → Option String
  | namespaceLine _ | includeLine _ => none
  | constant d => some d.name
  | structLike _ d => some d.name
  | enumeration d => some d.name
  | typedef d => some d.name
  | service d => some d.name

structure Document where
  body : List Statement

namespace Document

def namespaces (d : Document) : List NamespaceLine :=
  d.body.filterMap fun | .namespaceLine line => some line | _ => none

def includes (d : Document) : List String :=
  d.body.filterMap fun | .includeLine path => some path | _ => none

/-- Every struct, union and exception, in document order. -/
def structLikes (d : Document) : List (StructKind × StructLike) :=
  d.body.filterMap fun | .structLike kind definition => some (kind, definition) | _ => none

def enumerations (d : Document) : List Enumeration :=
  d.body.filterMap fun | .enumeration definition => some definition | _ => none

def typedefs (d : Document) : List Typedef :=
  d.body.filterMap fun | .typedef definition => some definition | _ => none

def constants (d : Document) : List Constant :=
  d.body.filterMap fun | .constant definition => some definition | _ => none

def services (d : Document) : List Service :=
  d.body.filterMap fun | .service definition => some definition | _ => none

end Document

end Thrift
