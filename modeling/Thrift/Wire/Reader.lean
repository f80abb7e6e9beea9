-- Reading from the wire. A reading takes bytes from the front of the unread input; when it
-- fails, what it took before stays taken.
import Thrift.Fault
import Thrift.Wire.BigEndian
import Thrift.Wire.Config

namespace Thrift

/-- A reading goes on from the unread input to a value or a fault, and to what is left. -/
abbrev Reading := EStateM Fault Bytes

namespace Reading

/-! ## Bytes -/

/-- Takes exactly so many bytes, or none when there are too few. -/
def take (n : Nat) : Reading Bytes := fun unread =>
  if unread.length < n then .error (.endOfInput n unread.length) unread
  else .ok (unread.take n) (unread.drop n)

def fail {α : Type} (cause : ProtocolFault) : Reading α := throw (.protocol cause)

/-! ## Scalars -/

def natural (width : Nat) : Reading Nat := BigEndian.value <$> take width

def byte : Reading Int8 := (fun n => (UInt8.ofNat n).toInt8) <$> natural 1
def i16 : Reading Int16 := (fun n => (UInt16.ofNat n).toInt16) <$> natural 2
def i32 : Reading Int32 := (fun n => (UInt32.ofNat n).toInt32) <$> natural 4
def i64 : Reading Int64 := (fun n => (UInt64.ofNat n).toInt64) <$> natural 8
def double : Reading Double := (fun n => ⟨UInt64.ofNat n⟩) <$> natural 8

/-- Every byte besides zero is true. -/
def bool : Reading Bool := (· != 0) <$> byte

/-! ## Sizes and blocks -/

/-- A size that is not negative and within the limit. -/
def size (what : Sized) (limit : Nat) : Reading Nat := do
  let n ← i32
  if n < 0 then fail (.negativeSize what n)
  let n := n.toInt.toNat
  if limit < n then fail (.sizeLimit what n limit)
  return n

def binary (c : WireConfig) : Reading Bytes := do
  let n ← size .string c.maxStringSize
  take n

def string (c : WireConfig) : Reading String := do
  match Text.ofBytes (← binary c) with
  | .ok s => return s
  | .error fault => fail (.invalidText fault)

def wireType : Reading WireType := do
  let code := (← byte).toUInt8
  match WireType.ofCode? code with
  | some t => return t
  | none => fail (.unknownWireType code)

/-- What stands before a field's value. -/
structure FieldHeader where
  type : WireType
  id : Int16
deriving DecidableEq, Repr

/-- The end of a struct is a tag without an id. -/
def fieldHeader : Reading FieldHeader := do
  let type ← wireType
  if type = .stop then return ⟨.stop, 0⟩
  return ⟨type, ← i16⟩

/-- What stands before the elements of a list or a set. -/
structure ElementsHeader where
  element : WireType
  size : Nat
deriving DecidableEq, Repr

structure EntriesHeader where
  key : WireType
  value : WireType
  size : Nat
deriving DecidableEq, Repr

def listHeader (c : WireConfig) : Reading ElementsHeader := do
  let element ← wireType
  return ⟨element, ← size .list c.maxContainerSize⟩

def setHeader (c : WireConfig) : Reading ElementsHeader := do
  let element ← wireType
  return ⟨element, ← size .set c.maxContainerSize⟩

def mapHeader (c : WireConfig) : Reading EntriesHeader := do
  let key ← wireType
  let value ← wireType
  return ⟨key, value, ← size .map c.maxContainerSize⟩

/-! ## Repetition -/

/-- Runs a reading so many times. -/
def times (body : Reading Unit) : Nat → Reading Unit
  | 0 => pure ()
  | n + 1 => do
    body
    times body n

/-- Reads field headers up to the end of the struct and runs the body after each. Every header
takes bytes, so the first argument need not be larger than the number of unread bytes. -/
def fieldsWithin {σ : Type} (body : FieldHeader → σ → Reading σ) : Nat → σ → Reading σ
  | 0, _ => throw (.codegen (.procedure .endlessLoop))
  | budget + 1, state => do
    let header ← fieldHeader
    if header.type = .stop then return state
    let state ← body header state
    fieldsWithin body budget state

/-- Runs the body for each field of a struct, passing a state along. -/
def fields {σ : Type} (body : FieldHeader → σ → Reading σ) (state : σ) : Reading σ := do
  fieldsWithin body ((← get).length + 1) state

/-! ## Passing over values -/

/-- Passes over one value of a type. The first argument is how deep the value may nest. -/
def skipWithin (c : WireConfig) : Nat → WireType → Reading Unit
  | 0, _ => fail .skipDepth
  | depth + 1, type =>
    match type with
    | .stop => fail .stopSkipped
    | .void => pure ()
    | .bool => do discard bool
    | .byte => do discard byte
    | .double => do discard double
    | .i16 => do discard i16
    | .i32 => do discard i32
    | .i64 => do discard i64
    | .string => do discard (binary c)
    | .struct => fields (fun header _ => skipWithin c depth header.type) ()
    | .map => do
      let header ← mapHeader c
      times (do skipWithin c depth header.key; skipWithin c depth header.value) header.size
    | .set => do
      let header ← setHeader c
      times (skipWithin c depth header.element) header.size
    | .list => do
      let header ← listHeader c
      times (skipWithin c depth header.element) header.size

def skip (c : WireConfig) (type : WireType) : Reading Unit := skipWithin c c.maxDepth type

end Reading

end Thrift
