-- Running decode procedures. A procedure binds what it reads to names, keeps finished fields
-- aside, and ends by building a struct.
import Thrift.Codec.Compile
import Thrift.Wire.Reader

namespace Thrift.Machine

/-! ## Bindings -/

/-- What a name may be bound to while decoding. -/
inductive Slot
  | value (v : Value)
  | header (h : Reading.FieldHeader)
  | size (n : Nat)

/-- The bindings of a procedure, and the fields that are finished. -/
structure Frame where
  slots : List (String × Slot)
  staged : List (String × Value)

namespace Frame

def empty : Frame := ⟨[], []⟩

def unbind (f : Frame) (name : String) : Frame :=
  { f with slots := f.slots.filter (·.1 != name) }

/-- Binds a name, which drops what it was bound to before. -/
def bind (f : Frame) (name : String) (s : Slot) : Frame :=
  { f with slots := (name, s) :: (f.unbind name).slots }

def get? (f : Frame) (name : String) : Option Slot := f.slots.lookup name

def stage (f : Frame) (field : String) (v : Value) : Frame :=
  { f with staged := Fields.insert field v f.staged }

end Frame

def broken {α : Type} (cause : ProcedureFault) : Reading α :=
  throw (.codegen (.procedure cause))

/-- The value bound to a name, which is bound no longer. -/
def takeValue (f : Frame) (name : String) : Reading (Value × Frame) :=
  match f.get? name with
  | some (.value v) => return (v, f.unbind name)
  | _ => broken (.notValue name)

def headerOf (f : Frame) (name : String) : Reading Reading.FieldHeader :=
  match f.get? name with
  | some (.header h) => return h
  | _ => broken (.notHeader name)

def sizeOf (f : Frame) (name : String) : Reading Nat :=
  match f.get? name with
  | some (.size n) => return n
  | _ => broken (.notSize name)

/-! ## Building a struct -/

/-- The value of each field that was decoded, else its default. -/
def filled (fields : List FieldInit) (staged : List (String × Value)) : List (String × Value) :=
  (fields.foldl (fun (set, left) f =>
    match left.lookup f.name with
    | some v => (Fields.insert f.name v set, Fields.erase f.name left)
    | none =>
      match f.default with
      | some v => (Fields.insert f.name v set, left)
      | none => (set, left)) (([] : List (String × Value)), staged)).1

/-- Builds a struct out of finished fields. What is required is judged by what was on the wire;
defaults fill in afterwards. -/
def build (struct : String) (kind : StructKind) (fields : List FieldInit)
    (staged : List (String × Value)) : Except ProtocolFault StructValue :=
  let isSet (f : FieldInit) : Bool := (staged.lookup f.name).isSome
  if fields.any fun f => f.required && !isSet f then .error (.unreadable struct)
  else
    let found := fields.countP isSet
    if kind = .union ∧ found = 0 then .error (.emptyUnion struct)
    else if kind = .union ∧ found ≠ 1 then .error (.crowdedUnion struct found)
    else .ok ⟨struct, filled fields staged⟩

/-! ## Statements -/

/-- How a statement leaves its block. -/
inductive Flow
  | next (f : Frame)
  | leave (f : Frame)
  | finished (v : StructValue)

/-- What a procedure is run with: the limits, and how a struct inside of it is decoded. -/
structure Surroundings where
  config : WireConfig
  nested : String → Reading StructValue

def readScalar (c : WireConfig) : ScalarKind → Reading Value
  | .bool => .bool <$> Reading.bool
  | .byte => .byte <$> Reading.byte
  | .i16 => .i16 <$> Reading.i16
  | .i32 => .i32 <$> Reading.i32
  | .i64 => .i64 <$> Reading.i64
  | .double => .double <$> Reading.double
  | .string => .string <$> Reading.string c
  | .binary => .binary <$> Reading.binary c

def readValue (s : Surroundings) : ValueCodec → Reading Value
  | .scalar kind => readScalar s.config kind
  | .struct name => StructValue.toValue <$> s.nested name

/-- The number of elements that a container announces. -/
def readSize (c : WireConfig) : ContainerKind → Reading Nat
  | .list _ => (·.size) <$> Reading.listHeader c
  | .set _ => (·.size) <$> Reading.setHeader c
  | .map _ _ => (·.size) <$> Reading.mapHeader c

def emptyContainer : ContainerKind → Value
  | .list _ => .list []
  | .set _ => .set []
  | .map _ _ => .map []

/-- Puts an element behind those of a container. Maps ask for a key, and only they do. -/
def insertInto (container : Value) (key : Option Value) (v : Value) : Option Value :=
  match container, key with
  | .list items, none => some (.list (items ++ [v]))
  | .set items, none => some (.set (items ++ [v]))
  | .map entries, some k => some (.map (entries ++ [(k, v)]))
  | _, _ => none

/-- Takes the element, then the key, and puts them into the container. -/
def insert (f : Frame) (container : String) (key : Option String) (value : String) :
    Reading Frame := do
  let (v, f) ← takeValue f value
  let (k, f) ← match key with
    | none => pure (none, f)
    | some name => do
      let (k, f) ← takeValue f name
      pure (some k, f)
  match f.get? container with
  | some (.value into) =>
    match insertInto into k v with
    | some grown => return f.bind container (.value grown)
    | none => broken (.notContainer container)
  | _ => broken (.notContainer container)

/-- Runs the body so many times, unless it leaves the loop or finishes. -/
def rounds (body : Frame → Reading Flow) : Nat → Frame → Reading Flow
  | 0, f => return .next f
  | n + 1, f => do
    match ← body f with
    | .next f => rounds body n f
    | .leave f => return .next f
    | .finished v => return .finished v

/-- Runs the body until it leaves the loop or finishes; the first argument bounds the rounds. -/
def roundsUntilLeft (body : Frame → Reading Flow) : Nat → Frame → Reading Flow
  | 0, _ => broken .endlessLoop
  | n + 1, f => do
    match ← body f with
    | .next f => roundsUntilLeft body n f
    | .leave f => return .next f
    | .finished v => return .finished v

/-- A round takes bytes or uses up bindings that its statements made, so there are no more rounds
than this. -/
def roundLimit (body : List Stmt) (unread : Bytes) : Nat :=
  (unread.length + 1) * ((Stmt.walkAll body).length + 2)

mutual

/-- Runs one statement of a decode procedure. -/
def decodeStmt (s : Surroundings) : Stmt → Frame → Reading Flow
  | .readStructBegin, f => return .next f
  | .readStructEnd, f => return .next f
  | .readFieldBegin header, f => do return .next (f.bind header (.header (← Reading.fieldHeader)))
  | .readFieldEnd, f => return .next f
  | .readContainerBegin kind metadata, f => do
    return .next (f.bind metadata (.size (← readSize s.config kind)))
  | .readContainerEnd _, f => return .next f
  | .read codec dest, f => do return .next (f.bind dest (.value (← readValue s codec)))
  | .newContainer kind dest, f => return .next (f.bind dest (.value (emptyContainer kind)))
  | .insert _ container key value, f => do return .next (← insert f container key value)
  | .skip header, f => do
    Reading.skip s.config (← headerOf f header).type
    return .next f
  | .loop body, f => do roundsUntilLeft (decodeBlock s body) (roundLimit body (← get)) f
  | .breakIfStop header, f => do
    return if (← headerOf f header).type = .stop then .leave f else .next f
  | .switch header cases default, f => do
    let h ← headerOf f header
    match decodeCase s h.id cases f with
    | some run => run
    | none => decodeBlock s default f
  | .ifWireType header expected matching otherwise, f => do
    let h ← headerOf f header
    if h.type = expected then decodeBlock s matching f else decodeBlock s otherwise f
  | .repeated metadata _ body, f => do rounds (decodeBlock s body) (← sizeOf f metadata) f
  | .stage field value, f => do
    let (v, f) ← takeValue f value
    return .next (f.stage field v)
  | .construct struct kind fields, f =>
    match build struct kind fields f.staged with
    | .ok v => return .finished v
    | .error cause => Reading.fail cause
  | other, _ => broken (.notDecoding other.op)

/-- Runs statements in order, as long as none of them leaves the block. -/
def decodeBlock (s : Surroundings) : List Stmt → Frame → Reading Flow
  | [], f => return .next f
  | stmt :: stmts, f => do
    match ← decodeStmt s stmt f with
    | .next f => decodeBlock s stmts f
    | flow => return flow

/-- The run of the first case with this id. -/
def decodeCase (s : Surroundings) (id : Int16) : List (Int16 × List Stmt) → Frame →
    Option (Reading Flow)
  | [], _ => none
  | (n, body) :: cases, f => if n = id then some (decodeBlock s body f) else decodeCase s id cases f

end

/-- Runs a decode procedure to its end. -/
def runDecode (s : Surroundings) (codec : StructCodec) : Reading StructValue := do
  match ← decodeBlock s codec.decode Frame.empty with
  | .finished v => return v
  | _ => broken (.noResult codec.name)

/-- Decodes a struct; the first argument is how deep structs may still be nested. -/
def decodeWithin (d : Compiled) (c : WireConfig) : Nat → String → Reading StructValue
  | 0, name => Reading.fail (.structDepth name c.maxDepth)
  | levels + 1, name =>
    match d.struct? name with
    | some codec => runDecode ⟨c, decodeWithin d c levels⟩ codec
    | none => broken (.noCodec name)

/-- Decodes the struct of a name. -/
def decode (d : Compiled) (c : WireConfig) (name : String) : Reading StructValue :=
  decodeWithin d c c.maxDepth name

end Thrift.Machine
