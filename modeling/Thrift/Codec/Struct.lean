-- The codec of a struct, union or exception: the layout of its fields, and the procedures that
-- decode and encode it.
import Thrift.Codec.Lowering

namespace Thrift

/-- A field as it is sent. -/
structure FieldLayout where
  name : String
  id : Int16
  type : FieldType
  wireType : WireType
  requiredness : Requiredness
  default : Option Value

structure StructCodec where
  name : String
  kind : StructKind
  fields : List FieldLayout
  decode : List Stmt
  encode : List Stmt

namespace FieldLayout

/-- Fields of a type that has no values are never decoded and never sent. -/
def isVoid (f : FieldLayout) : Bool := f.wireType == .void

def isRequired (f : FieldLayout) : Bool := f.requiredness == .required

/-- A field that decoding can set. -/
def toInit (f : FieldLayout) : FieldInit := ⟨f.name, f.id, f.isRequired, f.default⟩

/-- The default of a field, lowered to its type. -/
def defaultOf (t : SymbolTable) (struct : String) (f : Field) :
    Except CodegenError (Option Value) :=
  match f.default with
  | none => .ok none
  | some l => (l.lower t (struct ++ "." ++ f.name) f.type).map some

/-- The layout of one field, after those with the ids `taken`. -/
def ofField (t : SymbolTable) (struct : String) (taken : List Int16) (f : Field) :
    Except CodegenError FieldLayout := do
  match f.id with
  | none => throw (.missingFieldId struct f.name f.line)
  | some id =>
    if id ∈ taken then throw (.duplicateFieldId struct id)
    let default ← defaultOf t struct f
    return ⟨f.name, id, f.type, ← f.type.wireType t, f.requiredness, default⟩

/-- The layouts of the fields of a struct, in order. Every field has an id of its own. -/
def ofFields (t : SymbolTable) (struct : String) (taken : List Int16) :
    List Field → Except CodegenError (List FieldLayout)
  | [] => .ok []
  | f :: fs => do
    let layout ← ofField t struct taken f
    return layout :: (← ofFields t struct (layout.id :: taken) fs)

end FieldLayout

namespace StructCodec

def hasRequiredField (c : StructCodec) : Bool := c.fields.any (·.isRequired)

/-! ## Decoding -/

/-- The local that holds the header of the current field. -/
def headerName : String := "ret"

/-- Reads the value of a field whose tag is the expected one. -/
def decodeField (t : SymbolTable) (f : FieldLayout) : Drafting (List Stmt) := do
  if f.isVoid then Draft.read t f.type ""
  else
    let value ← Draft.fresh "value"
    return (← Draft.read t f.type value) ++ [.stage f.name value]

/-- A field with another tag than the expected one is passed over. -/
def decodeCase (t : SymbolTable) (f : FieldLayout) : Drafting (Int16 × List Stmt) := do
  return (f.id, [.ifWireType headerName f.wireType (← decodeField t f) [.skip headerName]])

/-- What is done for each field header. -/
def fieldLoop (cases : List (Int16 × List Stmt)) : List Stmt :=
  [.readFieldBegin headerName, .breakIfStop headerName,
    .switch headerName cases [.skip headerName], .readFieldEnd]

/-- The whole decode procedure, given the cases of the fields. -/
def decodeProcedure (kind : StructKind) (name : String) (fields : List FieldLayout)
    (cases : List (Int16 × List Stmt)) : List Stmt :=
  [.readStructBegin, .loop (fieldLoop cases), .readStructEnd,
    .construct name kind ((fields.filter (!·.isVoid)).map (·.toInit))]

/-- Runs a draft from a fresh state. -/
def draft {α : Type} (header : Option String) (d : Drafting α) : Except CodegenError α :=
  match d.run { DraftState.empty with header } with
  | .ok a _ => .ok a
  | .error e _ => .error e

def decodeOf (t : SymbolTable) (kind : StructKind) (name : String) (fields : List FieldLayout) :
    Except CodegenError (List Stmt) := do
  return decodeProcedure kind name fields (← draft (some headerName) (fields.mapM (decodeCase t)))

/-! ## Encoding -/

def fieldOfThis (f : FieldLayout) : Expr := .field .this f.name

/-- A field is sent when it is set. -/
def encodeField (t : SymbolTable) (f : FieldLayout) : Drafting Stmt := do
  let body ← Draft.write t f.type (fieldOfThis f)
  return .ifPresent (fieldOfThis f)
    ([.writeFieldBegin f.name f.wireType f.id] ++ body ++ [.writeFieldEnd])

/-- What must hold before anything is sent. -/
def checks (kind : StructKind) (name : String) (fields : List FieldLayout) : List Stmt :=
  (if kind = .union then [.requireSingleField .this name (fields.map (·.name))] else []) ++
    (fields.filter (·.isRequired)).map fun f => .requirePresent (fieldOfThis f) f.name

def encodeOf (t : SymbolTable) (kind : StructKind) (name : String) (fields : List FieldLayout) :
    Except CodegenError (List Stmt) := do
  let body ← draft none ((fields.filter (!·.isVoid)).mapM (encodeField t))
  return checks kind name fields ++ [.writeStructBegin name] ++ body ++
    [.writeFieldStop, .writeStructEnd]

/-- The codec of a definition. -/
def ofDefinition (t : SymbolTable) (kind : StructKind) (d : StructLike) :
    Except CodegenError StructCodec := do
  let fields ← FieldLayout.ofFields t d.name [] d.fields
  let decode ← decodeOf t kind d.name fields
  let encode ← encodeOf t kind d.name fields
  return ⟨d.name, kind, fields, decode, encode⟩

end StructCodec

end Thrift
