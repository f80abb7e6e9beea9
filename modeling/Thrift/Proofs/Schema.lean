-- What a document says about the wire, without any procedure: for each struct its members, and
-- for each member the form of its values. A form is a type with its typedefs opened.
import Thrift.Codec.Service

namespace Thrift

/-! ## Forms -/

/-- What values of a type look like on the wire. An enum is a number. -/
inductive Form
  | scalar (kind : ScalarKind)
  | struct (name : String)
  | list (element : Form)
  | set (element : Form)
  | map (key value : Form)
  | void
deriving DecidableEq, Repr, Inhabited

/-- The tag that stands before values of a form. -/
def Form.wireType : Form → WireType
  | scalar kind => kind.wireType
  | struct _ => .struct
  | list _ => .list
  | set _ => .set
  | map _ _ => .map
  | void => .void

namespace FieldType

/-- The form of a type; the first argument bounds how deep the type is nested, typedefs
included. A container holds no void. -/
def formWithin (t : SymbolTable) : Nat → FieldType → Except CodegenError Form
  | 0, type => .error type.tooDeep
  | levels + 1, type =>
    match type with
    | bool => .ok (.scalar .bool)
    | byte => .ok (.scalar .byte)
    | i8 => .ok (.scalar .byte)
    | i16 => .ok (.scalar .i16)
    | i32 => .ok (.scalar .i32)
    | i64 => .ok (.scalar .i64)
    | double => .ok (.scalar .double)
    | string => .ok (.scalar .string)
    | binary => .ok (.scalar .binary)
    | void => .ok .void
    | identifier name => do
      match ← t.shape name with
      | .struct struct => return .struct struct
      | .enumeration => return .scalar .i32
      | .alias underlying => formWithin t levels underlying
    | list element => do
      discard (type.elementType t element)
      return .list (← formWithin t levels element)
    | set element => do
      discard (type.elementType t element)
      return .set (← formWithin t levels element)
    | map key value => do
      discard (type.elementType t key)
      discard (type.elementType t value)
      return .map (← formWithin t levels key) (← formWithin t levels value)

/-- The form of the values of a type. -/
def form (t : SymbolTable) (type : FieldType) : Except CodegenError Form :=
  formWithin t maxTypeDepth type

end FieldType

/-! ## Records -/

/-- A field of a struct as its values travel. -/
structure Member where
  name : String
  id : Int16
  form : Form
  required : Bool
  default : Option Value

/-- A struct, union or exception as its values travel, the members in the order of declaration. -/
structure Record where
  name : String
  kind : StructKind
  members : List Member

structure Schema where
  records : List Record

namespace Member

/-- A member of a type that has no values is never sent. -/
def isVoid (m : Member) : Bool := m.form == .void

/-- The member that a field declares. -/
def ofField (t : SymbolTable) (struct : String) (f : Field) : Except CodegenError Member := do
  match f.id with
  | none => throw (.missingFieldId struct f.name f.line)
  | some id =>
    let default ← FieldLayout.defaultOf t struct f
    return ⟨f.name, id, ← f.type.form t, f.requiredness == .required, default⟩

end Member

namespace Record

/-- The members that may be sent. -/
def sent (r : Record) : List Member := r.members.filter (!·.isVoid)

def ofDefinition (t : SymbolTable) (d : StructKind × StructLike) : Except CodegenError Record := do
  return ⟨d.2.name, d.1, ← d.2.fields.mapM (Member.ofField t d.2.name)⟩

end Record

def Schema.record? (s : Schema) (name : String) : Option Record :=
  s.records.find? (·.name == name)

theorem Schema.name_of_record? {s : Schema} {name : String} {r : Record}
    (h : s.record? name = some r) : r.name = name := by
  have hname := List.find?_some h
  exact beq_iff_eq.mp hname

theorem Schema.mem_of_record? {s : Schema} {name : String} {r : Record}
    (h : s.record? name = some r) : r ∈ s.records := List.mem_of_find?_eq_some h

/-! ## Documents -/

namespace Document

/-- Every struct that is sent: those that the document defines, then those that carry the calls
of its services. -/
def carriers (d : Document) : List (StructKind × StructLike) :=
  d.structLikes ++ d.services.flatMap fun s =>
    (s.functions.flatMap (Service.structsOf s.name)).map fun struct => (.struct, struct)

/-- What a document says about the wire. -/
def schema (d : Document) : Except CodegenError Schema :=
  match SymbolTable.ofDocument d with
  | .error cause => .error (.resolve cause)
  | .ok t => do return ⟨← d.carriers.mapM (Record.ofDefinition t)⟩

/-- A small document: a struct with a required member, a list and a default. -/
def shelf : Document := ⟨[.structLike .struct ⟨"Shelf",
  [⟨"label", some 1, .string, .required, none, none⟩,
    ⟨"sizes", some 2, .list .i32, .default, none, none⟩,
    ⟨"room", some 3, .i32, .default, some (.int 7), none⟩]⟩]⟩

def shelfSchema : Schema := ⟨[⟨"Shelf", .struct,
  [⟨"label", 1, .scalar .string, true, none⟩, ⟨"sizes", 2, .list (.scalar .i32), false, none⟩,
    ⟨"room", 3, .scalar .i32, false, some (.i32 7)⟩]⟩]⟩

theorem schema_shelf : shelf.schema = .ok shelfSchema := rfl

end Document

end Thrift
