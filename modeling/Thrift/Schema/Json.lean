-- Documents as JSON. Writing gives every default; reading accepts what may be left out.
import Thrift.Json.Reader
import Thrift.Json.Record
import Thrift.Schema.Document

namespace Thrift

open Json (Fault)

/-! ## Writing -/

/-- An absent value is written as null. -/
def jsonOption {α : Type} (write : α → Json) : Option α → Json
  | some a => write a
  | none => .null

namespace FieldType

def toJson : FieldType → Json
  | bool => .object [("type", .string "bool")]
  | byte => .object [("type", .string "byte")]
  | i8 => .object [("type", .string "i8")]
  | i16 => .object [("type", .string "i16")]
  | i32 => .object [("type", .string "i32")]
  | i64 => .object [("type", .string "i64")]
  | double => .object [("type", .string "double")]
  | string => .object [("type", .string "string")]
  | binary => .object [("type", .string "binary")]
  | list element => .object [("type", .string "list"), ("valueType", element.toJson)]
  | set element => .object [("type", .string "set"), ("valueType", element.toJson)]
  | map key value =>
    .object [("type", .string "map"), ("keyType", key.toJson), ("valueType", value.toJson)]
  | identifier name => .object [("type", .string "identifier"), ("value", .string name)]
  | void => .object [("type", .string "void")]

end FieldType

namespace Literal

mutual

def toJson : Literal → Json
  | int n => .object [("type", .string "int"), ("value", .int n.toInt)]
  | double x => .object [("type", .string "double"), ("value", .ofDouble x)]
  | bool b => .object [("type", .string "bool"), ("value", .bool b)]
  | string s => .object [("type", .string "string"), ("value", .string s)]
  | list items => .object [("type", .string "list"), ("value", .list (toJsonItems items))]
  | map entries => .object [("type", .string "map"), ("value", .list (toJsonEntries entries))]
  | identifier reference =>
    .object [("type", .string "identifier"), ("value", .string reference)]

def toJsonItems : List Literal → List Json
  | [] => []
  | l :: ls => l.toJson :: toJsonItems ls

def toJsonEntries : List (Literal × Literal) → List Json
  | [] => []
  | (key, value) :: es =>
    .object [("key", key.toJson), ("value", value.toJson)] :: toJsonEntries es

end

end Literal

def Field.toJson (f : Field) : Json :=
  .object [("name", .string f.name), ("fieldID", jsonOption (fun n => .int n.toInt) f.id),
    ("fieldType", f.type.toJson), ("requiredness", .string f.requiredness.word),
    ("defaultValue", jsonOption Literal.toJson f.default),
    ("line", jsonOption (fun n => .int n.toNat) f.line)]

def StructLike.members (s : StructLike) : List (String × Json) :=
  [("name", .string s.name), ("fields", .list (s.fields.map Field.toJson))]

def EnumMember.toJson (m : EnumMember) : Json :=
  .object [("name", .string m.name),
    ("initializer", jsonOption (fun n => .int n.toInt) m.initializer)]

def Function.toJson (f : Function) : Json :=
  .object [("name", .string f.name), ("returnType", f.returnType.toJson),
    ("fields", .list (f.fields.map Field.toJson)), ("throws", .list (f.throws.map Field.toJson)),
    ("oneway", .bool f.oneway)]

namespace Statement

/-- The word that says what a statement defines. -/
def tag : Statement → String
  | namespaceLine _ => "NamespaceDefinition"
  | includeLine _ => "IncludeDefinition"
  | constant _ => "ConstDefinition"
  | structLike .struct _ => "StructDefinition"
  | structLike .union _ => "UnionDefinition"
  | structLike .exception _ => "ExceptionDefinition"
  | enumeration _ => "EnumDefinition"
  | typedef _ => "TypedefDefinition"
  | service _ => "ServiceDefinition"

def members : Statement → List (String × Json)
  | namespaceLine line => [("scope", .string line.scope), ("name", .string line.name)]
  | includeLine path => [("path", .string path)]
  | constant d =>
    [("name", .string d.name), ("fieldType", d.type.toJson), ("initializer", d.value.toJson)]
  | structLike _ d => d.members
  | enumeration d =>
    [("name", .string d.name), ("members", .list (d.members.map EnumMember.toJson))]
  | typedef d => [("name", .string d.name), ("definitionType", d.type.toJson)]
  | service d =>
    [("name", .string d.name), ("extends", jsonOption .string d.parent),
      ("functions", .list (d.functions.map Function.toJson))]

def toJson (s : Statement) : Json := .object (("type", .string s.tag) :: s.members)

end Statement

def Document.toJson (d : Document) : Json :=
  .object [("body", .list (d.body.map Statement.toJson))]

/-! ## Reading types and literals -/

namespace FieldType

/-- The words for types, in their fixed order. -/
def tags : List String :=
  ["bool", "byte", "i8", "i16", "i32", "i64", "double", "string", "binary", "list", "set", "map",
    "identifier", "void"]

/-- A type without parts: other members of its object are ignored, but its list holds nothing
besides the tag. -/
def bare (t : FieldType) : Json → Except Fault FieldType
  | .list (_ :: _) => .error .misshapen
  | _ => .ok t

/-- Reads a type; the first argument bounds the nesting. The parts of a type stand as they
would inside a document. -/
def ofJsonWithin : Nat → Json.Standing → Json → Except Fault FieldType
  | 0, _, _ => .error .misshapen
  | budget + 1, standing, j => do
    let (tag, rest) ← j.untag
    match ← tag.asTag standing tags with
    | "bool" => bare bool rest
    | "byte" => bare byte rest
    | "i8" => bare i8 rest
    | "i16" => bare i16 rest
    | "i32" => bare i32 rest
    | "i64" => bare i64 rest
    | "double" => bare double rest
    | "string" => bare string rest
    | "binary" => bare binary rest
    | "void" => bare void rest
    | "list" =>
      match ← rest.slots ["valueType"] with
      | [element] => return list (← Json.required (ofJsonWithin budget .inside) element)
      | _ => throw .misshapen
    | "set" =>
      match ← rest.slots ["valueType"] with
      | [element] => return set (← Json.required (ofJsonWithin budget .inside) element)
      | _ => throw .misshapen
    | "map" =>
      match ← rest.slots ["keyType", "valueType"] with
      | [key, value] =>
        return map (← Json.required (ofJsonWithin budget .inside) key)
          (← Json.required (ofJsonWithin budget .inside) value)
      | _ => throw .misshapen
    | "identifier" =>
      match ← rest.slots ["value"] with
      | [name] => return identifier (← Json.required Json.asString name)
      | _ => throw .misshapen
    | _ => throw .misshapen

/-- A type that stands inside a document. -/
def ofJson (j : Json) : Except Fault FieldType := ofJsonWithin (j.height + 1) .inside j

/-- A type that stands for itself. -/
def ofJsonAlone (j : Json) : Except Fault FieldType := ofJsonWithin (j.height + 1) .alone j

end FieldType

namespace Literal

/-- The words for literals, in their fixed order. -/
def tags : List String := ["int", "double", "bool", "string", "list", "map", "identifier"]

/-- An entry of a map literal as a record. -/
def entryOfJson (read : Json → Except Fault Literal) (j : Json) :
    Except Fault (Literal × Literal) := do
  match ← j.slots ["key", "value"] with
  | [key, value] => return (← Json.required read key, ← Json.required read value)
  | _ => throw .misshapen

/-- Reads a literal; the first argument bounds the nesting. -/
def ofJsonWithin : Nat → Json.Standing → Json → Except Fault Literal
  | 0, _, _ => .error .misshapen
  | budget + 1, standing, j => do
    let (word, value) ← j.asLabelled standing tags
    let value ← Json.required pure value
    match word with
    | "int" => return int (← value.asInt64)
    | "double" => return double (← value.asDouble)
    | "bool" => return bool (← value.asBool)
    | "string" => return string (← value.asString)
    | "list" => return list (← Json.listOf (ofJsonWithin budget standing) value)
    | "map" => return map (← Json.listOf (entryOfJson (ofJsonWithin budget standing)) value)
    | "identifier" => return identifier (← value.asString)
    | _ => throw .misshapen

/-- A literal that stands inside a document. -/
def ofJson (j : Json) : Except Fault Literal := ofJsonWithin (j.height + 1) .inside j

/-- A literal that stands for itself. -/
def ofJsonAlone (j : Json) : Except Fault Literal := ofJsonWithin (j.height + 1) .alone j

end Literal

/-! ## Reading definitions -/

def Requiredness.ofJson (j : Json) : Except Fault Requiredness := do
  match ← j.asWord .inside with
  | "required" => return .required
  | "optional" => return .optional
  | "default" => return .default
  | _ => throw .misshapen

def Field.ofJson (j : Json) : Except Fault Field := do
  match ← j.slots ["name", "fieldID", "fieldType", "requiredness", "defaultValue", "line"] with
  | [name, id, type, requiredness, default, line] =>
    return {
      name := ← Json.required Json.asString name
      id := ← Json.optional Json.asInt16 id
      type := ← Json.required FieldType.ofJson type
      requiredness := ← Json.orElse .default Requiredness.ofJson requiredness
      default := ← Json.optional Literal.ofJson default
      line := ← Json.optional Json.asUInt32 line }
  | _ => throw .misshapen

def StructLike.ofJson (j : Json) : Except Fault StructLike := do
  match ← j.slots ["name", "fields"] with
  | [name, fields] =>
    return {
      name := ← Json.required Json.asString name
      fields := ← Json.orElse [] (Json.listOf Field.ofJson) fields }
  | _ => throw .misshapen

def EnumMember.ofJson (j : Json) : Except Fault EnumMember := do
  match ← j.slots ["name", "initializer"] with
  | [name, initializer] =>
    return {
      name := ← Json.required Json.asString name
      initializer := ← Json.optional Json.asInt32 initializer }
  | _ => throw .misshapen

def Enumeration.ofJson (j : Json) : Except Fault Enumeration := do
  match ← j.slots ["name", "members"] with
  | [name, members] =>
    return {
      name := ← Json.required Json.asString name
      members := ← Json.orElse [] (Json.listOf EnumMember.ofJson) members }
  | _ => throw .misshapen

def Typedef.ofJson (j : Json) : Except Fault Typedef := do
  match ← j.slots ["name", "definitionType"] with
  | [name, type] =>
    return {
      name := ← Json.required Json.asString name
      type := ← Json.required FieldType.ofJson type }
  | _ => throw .misshapen

def Constant.ofJson (j : Json) : Except Fault Constant := do
  match ← j.slots ["name", "fieldType", "initializer"] with
  | [name, type, value] =>
    return {
      name := ← Json.required Json.asString name
      type := ← Json.required FieldType.ofJson type
      value := ← Json.required Literal.ofJson value }
  | _ => throw .misshapen

def Function.ofJson (j : Json) : Except Fault Function := do
  match ← j.slots ["name", "returnType", "fields", "throws", "oneway"] with
  | [name, returnType, fields, throws, oneway] =>
    return {
      name := ← Json.required Json.asString name
      returnType := ← Json.required FieldType.ofJson returnType
      fields := ← Json.orElse [] (Json.listOf Field.ofJson) fields
      throws := ← Json.orElse [] (Json.listOf Field.ofJson) throws
      oneway := ← Json.orElse false Json.asBool oneway }
  | _ => throw .misshapen

def Service.ofJson (j : Json) : Except Fault Service := do
  match ← j.slots ["name", "extends", "functions"] with
  | [name, parent, functions] =>
    return {
      name := ← Json.required Json.asString name
      parent := ← Json.optional Json.asString parent
      functions := ← Json.orElse [] (Json.listOf Function.ofJson) functions }
  | _ => throw .misshapen

def NamespaceLine.ofJson (j : Json) : Except Fault NamespaceLine := do
  match ← j.slots ["scope", "name"] with
  | [scope, name] =>
    return {
      scope := ← Json.required Json.asString scope
      name := ← Json.required Json.asString name }
  | _ => throw .misshapen

def includeOfJson (j : Json) : Except Fault String := do
  match ← j.slots ["path"] with
  | [path] => Json.required Json.asString path
  | _ => throw .misshapen

def Statement.ofJson (j : Json) : Except Fault Statement := do
  let (tag, rest) ← j.untag
  match ← tag.asString with
  | "NamespaceDefinition" => return .namespaceLine (← NamespaceLine.ofJson rest)
  | "IncludeDefinition" => return .includeLine (← includeOfJson rest)
  | "ConstDefinition" => return .constant (← Constant.ofJson rest)
  | "StructDefinition" => return .structLike .struct (← StructLike.ofJson rest)
  | "UnionDefinition" => return .structLike .union (← StructLike.ofJson rest)
  | "ExceptionDefinition" => return .structLike .exception (← StructLike.ofJson rest)
  | "EnumDefinition" => return .enumeration (← Enumeration.ofJson rest)
  | "TypedefDefinition" => return .typedef (← Typedef.ofJson rest)
  | "ServiceDefinition" => return .service (← Service.ofJson rest)
  | _ => throw .misshapen

def Document.ofJson (j : Json) : Except Fault Document := do
  match ← j.slots ["body"] with
  | [body] => return ⟨← Json.orElse [] (Json.listOf Statement.ofJson) body⟩
  | _ => throw .misshapen

/-! ## Reading text -/

namespace Document

/-- The outermost object, of which only the body is kept. All else is passed over, at any depth;
the first argument bounds the number of members. -/
def readMembers : Nat → List Char → Except Fault (List (String × Json) × List Char)
  | 0, _ => .error .truncated
  | budget + 1, cs => do
    let (name, rest) ← Json.readName .strict cs
    let care := if name = "body" then Json.Care.strict else .lax
    let (value, rest) ← Json.readValue care (Json.budgetOf rest) (Json.maxNesting - 1) rest
    let kept := if name = "body" then [(name, value)] else []
    match ← Json.readAfter '\x7d' rest with
    | (.closed, rest) => return (kept, rest)
    | (.another, rest) =>
      let (members, rest) ← readMembers budget rest
      return (kept ++ members, rest)

/-- The outermost list, which holds the body or nothing. A comma after the body is refused,
whatever follows it. -/
def readItems (cs : List Char) : Except Fault (Json × List Char) := do
  match Json.skipBlank cs with
  | ']' :: rest => return (.list [], rest)
  | cs =>
    let (body, rest) ← Json.readValue .strict (Json.budgetOf cs) (Json.maxNesting - 1) cs
    match ← Json.readAfter ']' rest with
    | (.closed, rest) => return (.list [body], rest)
    | (.another, _) => throw .malformed

/-- The tree of a document's text without what a document does not hold. -/
def readTree (cs : List Char) : Except Fault (Json × List Char) :=
  match Json.skipBlank cs with
  | '\x7b' :: rest =>
    match Json.skipBlank rest with
    | '\x7d' :: rest => .ok (.object [], rest)
    | rest => do
      let (members, rest) ← readMembers (Json.budgetOf rest) rest
      return (.object members, rest)
  | '[' :: rest => readItems rest
  | rest => Json.readScalar .strict rest

/-- The document that a text holds. -/
def ofText (s : String) : Except Fault Document := do
  let (tree, rest) ← readTree s.toList
  let document ← ofJson tree
  Json.expectEnd rest
  return document

end Document

end Thrift
