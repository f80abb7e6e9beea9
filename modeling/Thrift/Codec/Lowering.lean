-- Literals as values of the type they are declared for.
import Thrift.Codec.Draft
import Thrift.Text.Utf8

namespace Thrift

namespace Literal

/-- Everything that lowering looks up: the definitions, and the field that a fault names. -/
structure Place where
  symbols : SymbolTable
  field : String

namespace Place

def refuse {α : Type} (p : Place) (cause : LiteralFault) : Except CodegenError α :=
  .error (.invalidDefault p.field cause)

def mismatch {α : Type} (p : Place) (expected : String) (l : Literal) : Except CodegenError α :=
  p.refuse (.mismatch expected l.kind)

/-- The number of an integer literal. -/
def int (p : Place) (expected : String) : Literal → Except CodegenError Int64
  | .int n => .ok n
  | l => p.mismatch expected l

/-- An integer literal in a closed range. -/
def intIn (p : Place) (expected slot : String) (low high : Int) (l : Literal) :
    Except CodegenError Int := do
  let n ← p.int expected l
  if low ≤ n.toInt ∧ n.toInt ≤ high then return n.toInt
  else p.refuse (.outOfRange n slot)

def asByte (p : Place) (l : Literal) : Except CodegenError Value := do
  return .byte (Int8.ofInt (← p.intIn "byte" "a byte" Int8.minValue.toInt Int8.maxValue.toInt l))

def asI16 (p : Place) (l : Literal) : Except CodegenError Value := do
  return .i16 (Int16.ofInt (← p.intIn "i16" "an i16" Int16.minValue.toInt Int16.maxValue.toInt l))

def asI32 (p : Place) (l : Literal) : Except CodegenError Value := do
  return .i32 (Int32.ofInt (← p.intIn "i32" "an i32" Int32.minValue.toInt Int32.maxValue.toInt l))

def asI64 (p : Place) (l : Literal) : Except CodegenError Value := do
  return .i64 (← p.int "i64" l)

/-- An enum is the number of its member, and any number of the same size. -/
def asEnum (p : Place) (l : Literal) : Except CodegenError Value := do
  return .i32 (Int32.ofInt (← p.intIn "enum" "an enum" Int32.minValue.toInt Int32.maxValue.toInt l))

/-- The numbers 0 and 1 serve as truth values. -/
def asBool (p : Place) : Literal → Except CodegenError Value
  | .bool b => .ok (.bool b)
  | .int n =>
    if n = 0 then .ok (.bool false)
    else if n = 1 then .ok (.bool true)
    else p.mismatch "bool" (.int n)
  | l => p.mismatch "bool" l

def asDouble (p : Place) : Literal → Except CodegenError Value
  | .double x => .ok (.double x)
  | .int n => .ok (.double (Double.ofInt n.toInt))
  | l => p.mismatch "double" l

def asString (p : Place) : Literal → Except CodegenError Value
  | .string s => .ok (.string s)
  | l => p.mismatch "string" l

def asBinary (p : Place) : Literal → Except CodegenError Value
  | .string s => .ok (.binary (Text.toBytes s))
  | l => p.mismatch "binary" l

def asItems (p : Place) (lower : Literal → Except CodegenError Value) (type : FieldType) :
    Literal → Except CodegenError (List Value)
  | .list items => items.mapM lower
  | l => p.mismatch type.displayName l

def asMap (p : Place) (lowerKey lowerValue : Literal → Except CodegenError Value)
    (type : FieldType) : Literal → Except CodegenError Value
  | .map entries => do
    return .map (← entries.mapM fun (k, v) => do return (← lowerKey k, ← lowerValue v))
  | l => p.mismatch type.displayName l

/-- Sets one field of an instance, which must be declared. -/
def setField (p : Place) (lower : Literal → FieldType → Except CodegenError Value)
    (definition : StructLike) (built : StructValue) (entry : Literal × Literal) :
    Except CodegenError StructValue := do
  match entry.1 with
  | .string key =>
    match definition.fields.find? (·.name == key) with
    | some field => return built.set key (← lower entry.2 field.type)
    | none => p.refuse (.noField definition.name key)
  | _ => p.refuse .keyNotString

/-- A map with names of fields for keys is an instance of a struct. -/
def asStruct (p : Place) (lower : Literal → FieldType → Except CodegenError Value)
    (definition : StructLike) : Literal → Except CodegenError Value
  | .map entries => do
    return (← entries.foldlM (p.setField lower definition) (.empty definition.name)).toValue
  | l => p.mismatch definition.name l

end Place

/-- Lowers a literal; the first argument bounds the steps into elements, typedefs and
references. -/
def lowerWithin (p : Place) : Nat → Literal → FieldType → Except CodegenError Value
  | 0, _, _ => p.refuse .tooDeep
  | levels + 1, l, type =>
    match l with
    | .identifier reference =>
      match p.symbols.lookup reference with
      | some (.constant d) => lowerWithin p levels d.value type
      | _ =>
        match p.symbols.enumMember reference with
        | .ok member => lowerWithin p levels (.int (Int64.ofInt member.toInt)) type
        | .error _ => p.refuse (.unknownReference reference)
    | _ =>
      match type with
      | .bool => p.asBool l
      | .byte => p.asByte l
      | .i8 => p.asByte l
      | .i16 => p.asI16 l
      | .i32 => p.asI32 l
      | .i64 => p.asI64 l
      | .double => p.asDouble l
      | .string => p.asString l
      | .binary => p.asBinary l
      | .list element => do
        return .list (← p.asItems (fun item => lowerWithin p levels item element) type l)
      | .set element => do
        return .set (← p.asItems (fun item => lowerWithin p levels item element) type l)
      | .map key element =>
        p.asMap (fun k => lowerWithin p levels k key) (fun v => lowerWithin p levels v element)
          type l
      | .identifier name =>
        match p.symbols.resolveType name with
        | .error cause => .error (.resolve cause)
        | .ok (.typedef _ underlying) => lowerWithin p levels l underlying
        | .ok (.enumeration _) => p.asEnum l
        | .ok (.structLike _ d) => p.asStruct (fun l type => lowerWithin p levels l type) d l
        | .ok (.constant d) => .error (.resolve (.typeMisuse d.name .value))
        | .ok (.service d) => .error (.resolve (.typeMisuse d.name .service))
      | .void => p.refuse .voidSlot

/-- The value of a literal that is declared for a type. The field is named by faults. -/
def lower (symbols : SymbolTable) (field : String) (l : Literal) (type : FieldType) :
    Except CodegenError Value :=
  lowerWithin ⟨symbols, field⟩ (maxTypeDepth + 1) l type

end Literal

end Thrift
