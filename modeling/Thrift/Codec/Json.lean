-- Codecs as JSON. Procedures are read back in exactly the form in which they are written.
import Thrift.Codec.Compile
import Thrift.Schema.Json
import Thrift.Value.Json

namespace Thrift

open Json (Fault)

/-! ## Parts of statements -/

def WireType.toJson (t : WireType) : Json := .string t.word

def WireType.ofJson (j : Json) : Except Fault WireType := do
  match WireType.all.find? (·.word == (← j.asString)) with
  | some t => return t
  | none => throw .misshapen

namespace ValueCodec

def toJson : ValueCodec → Json
  | scalar kind => .object [("codec", .string "scalar"), ("kind", .string kind.word)]
  | struct name => .object [("codec", .string "struct"), ("name", .string name)]

def ofJson (j : Json) : Except Fault ValueCodec := do
  match j with
  | .object members =>
    match ← (← Json.required pure (members.lookup "codec")).asString with
    | "scalar" =>
      let word ← (← Json.required pure (members.lookup "kind")).asString
      match ScalarKind.all.find? (·.word == word) with
      | some kind => return scalar kind
      | none => throw .misshapen
    | "struct" => return struct (← (← Json.required pure (members.lookup "name")).asString)
    | _ => throw .misshapen
  | _ => throw .misshapen

end ValueCodec

namespace ContainerKind

def toJson : ContainerKind → Json
  | list element => .object [("container", .string "list"), ("element", element.toJson)]
  | set element => .object [("container", .string "set"), ("element", element.toJson)]
  | map key value =>
    .object [("container", .string "map"), ("key", key.toJson), ("value", value.toJson)]

def ofJson (j : Json) : Except Fault ContainerKind := do
  match j with
  | .object members =>
    let type name := do WireType.ofJson (← Json.required pure (members.lookup name))
    match ← (← Json.required pure (members.lookup "container")).asString with
    | "list" => return list (← type "element")
    | "set" => return set (← type "element")
    | "map" => return map (← type "key") (← type "value")
    | _ => throw .misshapen
  | _ => throw .misshapen

end ContainerKind

namespace Expr

def toJson : Expr → Json
  | this => .object [("expr", .string "this")]
  | bound name => .object [("expr", .string "local"), ("name", .string name)]
  | field base name =>
    .object [("expr", .string "field"), ("base", base.toJson), ("name", .string name)]

/-- Reads an expression; the first argument bounds the nesting. -/
def ofJsonWithin : Nat → Json → Except Fault Expr
  | 0, _ => .error .misshapen
  | budget + 1, j => do
    match j with
    | .object members =>
      match ← (← Json.required pure (members.lookup "expr")).asString with
      | "this" => return this
      | "local" => return bound (← (← Json.required pure (members.lookup "name")).asString)
      | "field" =>
        return field (← ofJsonWithin budget (← Json.required pure (members.lookup "base")))
          (← (← Json.required pure (members.lookup "name")).asString)
      | _ => throw .misshapen
    | _ => throw .misshapen

def ofJson (j : Json) : Except Fault Expr := ofJsonWithin (j.height + 1) j

end Expr

def StructKind.ofJson (j : Json) : Except Fault StructKind := do
  match ← j.asString with
  | "struct" => return .struct
  | "union" => return .union
  | "exception" => return .exception
  | _ => throw .misshapen

def FieldInit.toJson (f : FieldInit) : Json :=
  .object [("name", .string f.name), ("id", .int f.id.toInt), ("required", .bool f.required),
    ("default", jsonOption Value.toJson f.default)]

def FieldInit.ofJson (j : Json) : Except Fault FieldInit := do
  match ← j.slots ["name", "id", "required", "default"] with
  | [name, id, required, default] =>
    return ⟨← Json.required Json.asString name, ← Json.required Json.asInt16 id,
      ← Json.required Json.asBool required, ← Json.optional Value.ofJson default⟩
  | _ => throw .misshapen

/-! ## Statements -/

namespace Stmt

/-- The members of a statement after its name. -/
def tagged (name : String) (members : List (String × Json)) : Json :=
  .object (("op", .string name) :: members)

mutual

def toJson : Stmt → Json
  | readStructBegin => tagged "ReadStructBegin" []
  | readStructEnd => tagged "ReadStructEnd" []
  | readFieldBegin header => tagged "ReadFieldBegin" [("header", .string header)]
  | readFieldEnd => tagged "ReadFieldEnd" []
  | readContainerBegin kind metadata =>
    tagged "ReadContainerBegin" [("kind", kind.toJson), ("metadata", .string metadata)]
  | readContainerEnd kind => tagged "ReadContainerEnd" [("kind", kind.toJson)]
  | read codec dest => tagged "Read" [("codec", codec.toJson), ("dest", .string dest)]
  | newContainer kind dest => tagged "NewContainer" [("kind", kind.toJson), ("dest", .string dest)]
  | insert kind container key value =>
    tagged "Insert" [("kind", kind.toJson), ("container", .string container),
      ("key", jsonOption .string key), ("value", .string value)]
  | skip header => tagged "Skip" [("header", .string header)]
  | loop body => tagged "Loop" [("body", .list (toJsonAll body))]
  | breakIfStop header => tagged "BreakIfStop" [("header", .string header)]
  | switch header cases default =>
    tagged "Switch" [("header", .string header), ("cases", .list (toJsonCases cases)),
      ("default", .list (toJsonAll default))]
  | ifWireType header expected matching otherwise =>
    tagged "IfWireType" [("header", .string header), ("expected", expected.toJson),
      ("then", .list (toJsonAll matching)), ("otherwise", .list (toJsonAll otherwise))]
  | repeated metadata counter body =>
    tagged "Repeat" [("metadata", .string metadata), ("counter", .string counter),
      ("body", .list (toJsonAll body))]
  | stage field value => tagged "Stage" [("field", .string field), ("value", .string value)]
  | construct struct kind fields =>
    tagged "Construct" [("struct_name", .string struct), ("kind", .string kind.word),
      ("fields", .list (fields.map (·.toJson)))]
  | writeStructBegin name => tagged "WriteStructBegin" [("name", .string name)]
  | writeStructEnd => tagged "WriteStructEnd" []
  | writeFieldBegin name type id =>
    tagged "WriteFieldBegin" [("name", .string name), ("wire_type", type.toJson),
      ("id", .int id.toInt)]
  | writeFieldEnd => tagged "WriteFieldEnd" []
  | writeFieldStop => tagged "WriteFieldStop" []
  | writeContainerBegin kind source =>
    tagged "WriteContainerBegin" [("kind", kind.toJson), ("source", source.toJson)]
  | writeContainerEnd kind => tagged "WriteContainerEnd" [("kind", kind.toJson)]
  | write codec source => tagged "Write" [("codec", codec.toJson), ("source", source.toJson)]
  | forEach kind source key value body =>
    tagged "ForEach" [("kind", kind.toJson), ("source", source.toJson),
      ("key", jsonOption .string key), ("value", .string value), ("body", .list (toJsonAll body))]
  | ifPresent source body =>
    tagged "IfPresent" [("source", source.toJson), ("body", .list (toJsonAll body))]
  | requirePresent source field =>
    tagged "RequirePresent" [("source", source.toJson), ("field", .string field)]
  | requireSingleField source struct fields =>
    tagged "RequireSingleField" [("source", source.toJson), ("struct_name", .string struct),
      ("fields", .list (fields.map .string))]

def toJsonAll : List Stmt → List Json
  | [] => []
  | s :: ss => s.toJson :: toJsonAll ss

def toJsonCases : List (Int16 × List Stmt) → List Json
  | [] => []
  | (id, body) :: cases =>
    .object [("id", .int id.toInt), ("body", .list (toJsonAll body))] :: toJsonCases cases

end

/-- Reads a statement; the first argument bounds the nesting. -/
def ofJsonWithin : Nat → Json → Except Fault Stmt
  | 0, _ => .error .misshapen
  | budget + 1, j => do
    match j with
    | .object members =>
      let get {α : Type} (name : String) (read : Json → Except Fault α) : Except Fault α :=
        Json.required read (members.lookup name)
      let text name := get name Json.asString
      let maybe name := Json.optional Json.asString (members.lookup name)
      let block name := get name (Json.listOf (ofJsonWithin budget))
      let kind := get "kind" ContainerKind.ofJson
      let codec := get "codec" ValueCodec.ofJson
      let source := get "source" Expr.ofJson
      match ← text "op" with
      | "ReadStructBegin" => return readStructBegin
      | "ReadStructEnd" => return readStructEnd
      | "ReadFieldBegin" => return readFieldBegin (← text "header")
      | "ReadFieldEnd" => return readFieldEnd
      | "ReadContainerBegin" => return readContainerBegin (← kind) (← text "metadata")
      | "ReadContainerEnd" => return readContainerEnd (← kind)
      | "Read" => return read (← codec) (← text "dest")
      | "NewContainer" => return newContainer (← kind) (← text "dest")
      | "Insert" =>
        return insert (← kind) (← text "container") (← maybe "key") (← text "value")
      | "Skip" => return skip (← text "header")
      | "Loop" => return loop (← block "body")
      | "BreakIfStop" => return breakIfStop (← text "header")
      | "Switch" =>
        let cases ← get "cases" (Json.listOf fun j => do
          match ← j.slots ["id", "body"] with
          | [id, body] =>
            return (← Json.required Json.asInt16 id,
              ← Json.required (Json.listOf (ofJsonWithin budget)) body)
          | _ => throw .misshapen)
        return switch (← text "header") cases (← block "default")
      | "IfWireType" =>
        return ifWireType (← text "header") (← get "expected" WireType.ofJson) (← block "then")
          (← block "otherwise")
      | "Repeat" => return repeated (← text "metadata") (← text "counter") (← block "body")
      | "Stage" => return stage (← text "field") (← text "value")
      | "Construct" =>
        return construct (← text "struct_name") (← get "kind" StructKind.ofJson)
          (← get "fields" (Json.listOf FieldInit.ofJson))
      | "WriteStructBegin" => return writeStructBegin (← text "name")
      | "WriteStructEnd" => return writeStructEnd
      | "WriteFieldBegin" =>
        return writeFieldBegin (← text "name") (← get "wire_type" WireType.ofJson)
          (← get "id" Json.asInt16)
      | "WriteFieldEnd" => return writeFieldEnd
      | "WriteFieldStop" => return writeFieldStop
      | "WriteContainerBegin" => return writeContainerBegin (← kind) (← source)
      | "WriteContainerEnd" => return writeContainerEnd (← kind)
      | "Write" => return write (← codec) (← source)
      | "ForEach" =>
        return forEach (← kind) (← source) (← maybe "key") (← text "value") (← block "body")
      | "IfPresent" => return ifPresent (← source) (← block "body")
      | "RequirePresent" => return requirePresent (← source) (← text "field")
      | "RequireSingleField" =>
        return requireSingleField (← source) (← text "struct_name")
          (← get "fields" (Json.listOf Json.asString))
      | _ => throw .misshapen
    | _ => throw .misshapen

def ofJson (j : Json) : Except Fault Stmt := ofJsonWithin (j.height + 1) j

end Stmt

/-! ## Codecs -/

def FieldLayout.toJson (f : FieldLayout) : Json :=
  .object [("name", .string f.name), ("id", .int f.id.toInt), ("field_type", f.type.toJson),
    ("wire_type", f.wireType.toJson), ("requiredness", .string f.requiredness.word),
    ("default", jsonOption Value.toJson f.default)]

def StructCodec.toJson (c : StructCodec) : Json :=
  .object [("name", .string c.name), ("kind", .string c.kind.word),
    ("fields", .list (c.fields.map (·.toJson))), ("decode", .list (Stmt.toJsonAll c.decode)),
    ("encode", .list (Stmt.toJsonAll c.encode))]

def ExceptionSlot.toJson (s : ExceptionSlot) : Json :=
  .object [("field", .string s.field), ("id", .int s.id.toInt), ("exception", .string s.exception)]

def Method.toJson (m : Method) : Json :=
  .object [("name", .string m.name), ("declared_in", .string m.declaredIn),
    ("args_struct", .string m.argsStruct), ("result_struct", jsonOption .string m.resultStruct),
    ("return_type", m.returnType.toJson), ("oneway", .bool m.oneway),
    ("exceptions", .list (m.exceptions.map (·.toJson)))]

def ServiceCodec.toJson (s : ServiceCodec) : Json :=
  .object [("name", .string s.name), ("extends", jsonOption .string s.parent),
    ("methods", .list (s.methods.map (·.toJson)))]

def Compiled.toJson (c : Compiled) : Json :=
  .object [("structs", .list (c.structs.map (·.toJson))),
    ("services", .list (c.services.map (·.toJson)))]

end Thrift
