-- Drafts: the statements that read or write one value of a type, and the names that are given
-- out for temporaries on the way. Reading and writing follow a type in the same way.
import Thrift.Codec.Fault
import Thrift.Codec.Procedure

namespace Thrift

/-- How deep types may be nested, typedefs included. -/
def maxTypeDepth : Nat := 64

/-! ## What a type is on the wire -/

/-- What an identifier in the place of a type contributes. -/
inductive Shape
  | struct (name : String)
  | enumeration
  | alias (type : FieldType)

namespace SymbolTable

/-- What the identifier contributes; values and services are no types. -/
def shape (t : SymbolTable) (name : String) : Except CodegenError Shape :=
  match t.resolveType name with
  | .error cause => .error (.resolve cause)
  | .ok (.structLike _ d) => .ok (.struct d.name)
  | .ok (.enumeration _) => .ok .enumeration
  | .ok (.typedef _ underlying) => .ok (.alias underlying)
  | .ok (.constant d) => .error (.resolve (.typeMisuse d.name .value))
  | .ok (.service d) => .error (.resolve (.typeMisuse d.name .service))

end SymbolTable

namespace FieldType

/-- The scalar that a type is, if it is one. -/
def scalar? : FieldType → Option ScalarKind
  | bool => some .bool
  | byte => some .byte
  | i8 => some .byte
  | i16 => some .i16
  | i32 => some .i32
  | i64 => some .i64
  | double => some .double
  | string => some .string
  | binary => some .binary
  | _ => none

/-- A type that is nested too deeply. -/
def tooDeep (type : FieldType) : CodegenError :=
  .procedure (.typeTooDeep type.displayName maxTypeDepth)

/-- The tag of a type's values; the first argument bounds the typedefs that are followed. -/
def wireTypeWithin (t : SymbolTable) : Nat → FieldType → Except CodegenError WireType
  | 0, type => .error type.tooDeep
  | levels + 1, type =>
    match type with
    | bool => .ok .bool
    | byte => .ok .byte
    | i8 => .ok .byte
    | i16 => .ok .i16
    | i32 => .ok .i32
    | i64 => .ok .i64
    | double => .ok .double
    | string => .ok .string
    | binary => .ok .string
    | list _ => .ok .list
    | set _ => .ok .set
    | map _ _ => .ok .map
    | void => .ok .void
    | identifier name => do
      match ← t.shape name with
      | .struct _ => return .struct
      | .enumeration => return .i32
      | .alias underlying => wireTypeWithin t levels underlying

/-- The tag that stands before values of a type. -/
def wireType (t : SymbolTable) (type : FieldType) : Except CodegenError WireType :=
  wireTypeWithin t (maxTypeDepth + 1) type

/-- The tag of an element. A container holds no void. -/
def elementType (t : SymbolTable) (container element : FieldType) :
    Except CodegenError WireType := do
  match ← element.wireType t with
  | .void => throw (.procedure (.voidElement container.displayName))
  | type => return type

end FieldType

/-! ## Names for temporaries -/

/-- Every name that was given out had a number of its own. -/
structure Names where
  stems : List String
deriving DecidableEq

namespace Names

def empty : Names := ⟨[]⟩

/-- A name with the next number, and the names after it is given out. -/
def fresh (n : Names) (stem : String) : String × Names :=
  (s!"{stem}_{n.stems.length + 1}", ⟨stem :: n.stems⟩)

/-- How many names were given out for a stem. -/
def issued (n : Names) (stem : String) : Nat := n.stems.count stem

end Names

/-! ## Drafting -/

/-- What a pass of drafting carries along. `header` is bound to the header of the field that is
being decoded. `excess` counts the types that were refused as nested too deeply. -/
structure DraftState where
  names : Names
  header : Option String
  excess : Nat

def DraftState.empty : DraftState := ⟨Names.empty, none, 0⟩

/-- Drafting keeps names that were given out before a failure. -/
abbrev Drafting := EStateM CodegenError DraftState

namespace Draft

def fresh (stem : String) : Drafting String :=
  modifyGet fun s =>
    let (name, names) := s.names.fresh stem
    (name, { s with names })

def ofExcept {α : Type} : Except CodegenError α → Drafting α
  | .ok a => return a
  | .error e => throw e

/-- A type that is nested too deeply takes one level from all later types. -/
def refuse {α : Type} (type : FieldType) : Drafting α := do
  modify fun s => { s with excess := s.excess + 1 }
  throw type.tooDeep

/-- The levels that are left for a type. -/
def levels : Drafting Nat := return maxTypeDepth - (← get).excess

/-- Reads elements into a new container. -/
def readContainer (kind : ContainerKind) (metadata counter target : String) (body : List Stmt) :
    List Stmt :=
  [.readContainerBegin kind metadata, .newContainer kind target, .repeated metadata counter body,
    .readContainerEnd kind]

/-- Reads one value of a type and binds it to the target; the first argument is the number of
levels left. -/
def readWithin (t : SymbolTable) : Nat → FieldType → String → Drafting (List Stmt)
  | 0, type, _ => refuse type
  | levels + 1, type, target =>
    match type with
    | .identifier name => do
      match ← ofExcept (t.shape name) with
      | .struct struct => return [.read (.struct struct) target]
      | .enumeration => return [.read (.scalar .i32) target]
      | .alias underlying => readWithin t levels underlying target
    | .list element => do
      let kind := ContainerKind.list (← ofExcept (type.elementType t element))
      let metadata ← fresh "metadata"
      let counter ← fresh "i"
      let value ← fresh "value"
      let body ← readWithin t levels element value
      return readContainer kind metadata counter target
        (body ++ [.insert kind target none value])
    | .set element => do
      let kind := ContainerKind.set (← ofExcept (type.elementType t element))
      let metadata ← fresh "metadata"
      let counter ← fresh "i"
      let value ← fresh "value"
      let body ← readWithin t levels element value
      return readContainer kind metadata counter target
        (body ++ [.insert kind target none value])
    | .map key element => do
      let keyType ← ofExcept (type.elementType t key)
      let kind := ContainerKind.map keyType (← ofExcept (type.elementType t element))
      let metadata ← fresh "metadata"
      let counter ← fresh "i"
      let keyName ← fresh "key"
      let value ← fresh "value"
      let keyBody ← readWithin t levels key keyName
      let body ← readWithin t levels element value
      return readContainer kind metadata counter target
        (keyBody ++ body ++ [.insert kind target (some keyName) value])
    | .void => do
      match (← get).header with
      | some header => return [.skip header]
      | none => throw (.procedure .voidOutsideField)
    | _ =>
      match type.scalar? with
      | some kind => return [.read (.scalar kind) target]
      | none => return []

/-- The statements that read one value of a type and bind it to the target. -/
def read (t : SymbolTable) (type : FieldType) (target : String) : Drafting (List Stmt) := do
  readWithin t (← levels) type target

/-- Writes the elements of a container. -/
def writeContainer (kind : ContainerKind) (source : Expr) (key : Option String) (value : String)
    (body : List Stmt) : List Stmt :=
  [.writeContainerBegin kind source, .forEach kind source key value body, .writeContainerEnd kind]

/-- Writes the value found at the source as a value of a type; the first argument is the number
of levels left. -/
def writeWithin (t : SymbolTable) : Nat → FieldType → Expr → Drafting (List Stmt)
  | 0, type, _ => refuse type
  | levels + 1, type, source =>
    match type with
    | .identifier name => do
      match ← ofExcept (t.shape name) with
      | .struct struct => return [.write (.struct struct) source]
      | .enumeration => return [.write (.scalar .i32) source]
      | .alias underlying => writeWithin t levels underlying source
    | .list element => do
      let kind := ContainerKind.list (← ofExcept (type.elementType t element))
      let value ← fresh "value"
      let body ← writeWithin t levels element (.bound value)
      return writeContainer kind source none value body
    | .set element => do
      let kind := ContainerKind.set (← ofExcept (type.elementType t element))
      let value ← fresh "value"
      let body ← writeWithin t levels element (.bound value)
      return writeContainer kind source none value body
    | .map key element => do
      let keyType ← ofExcept (type.elementType t key)
      let kind := ContainerKind.map keyType (← ofExcept (type.elementType t element))
      let keyName ← fresh "key"
      let value ← fresh "value"
      let keyBody ← writeWithin t levels key (.bound keyName)
      let body ← writeWithin t levels element (.bound value)
      return writeContainer kind source (some keyName) value (keyBody ++ body)
    | .void => return []
    | _ =>
      match type.scalar? with
      | some kind => return [.write (.scalar kind) source]
      | none => return []

/-- The statements that write the value found at the source as a value of a type. -/
def write (t : SymbolTable) (type : FieldType) (source : Expr) : Drafting (List Stmt) := do
  writeWithin t (← levels) type source

end Draft

end Thrift
