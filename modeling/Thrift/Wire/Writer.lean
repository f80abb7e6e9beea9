-- Writing to the wire. A writing gives bytes and either a value or a fault; bytes that were
-- given before a fault stay given.
import Thrift.Fault
import Thrift.Wire.BigEndian
import Thrift.Wire.Config

namespace Thrift

/-- The bytes that an action writes, and how it ends. -/
structure Writing (α : Type) where
  bytes : Bytes
  outcome : Except Fault α

namespace Writing

/-- Writes nothing. -/
def done {α : Type} (a : α) : Writing α := ⟨[], .ok a⟩

/-- The second action writes after the first, unless the first fails. -/
def andThen {α β : Type} (w : Writing α) (next : α → Writing β) : Writing β :=
  match w.outcome with
  | .ok a =>
    let more := next a
    ⟨w.bytes ++ more.bytes, more.outcome⟩
  | .error fault => ⟨w.bytes, .error fault⟩

instance : Monad Writing where
  pure := done
  bind := andThen

/-- Fails without writing. -/
def stop {α : Type} (fault : Fault) : Writing α := ⟨[], .error fault⟩

def fail {α : Type} (cause : ProtocolFault) : Writing α := stop (.protocol cause)

def put (bs : Bytes) : Writing Unit := ⟨bs, .ok ()⟩

/-! ## Scalars -/

def byte (v : Int8) : Writing Unit := put (BigEndian.bytes 1 v.toUInt8.toNat)
def i16 (v : Int16) : Writing Unit := put (BigEndian.bytes 2 v.toUInt16.toNat)
def i32 (v : Int32) : Writing Unit := put (BigEndian.bytes 4 v.toUInt32.toNat)
def i64 (v : Int64) : Writing Unit := put (BigEndian.bytes 8 v.toUInt64.toNat)
def double (v : Double) : Writing Unit := put (BigEndian.bytes 8 v.bits.toNat)
def bool (v : Bool) : Writing Unit := byte (if v then 1 else 0)

/-! ## Sizes and blocks -/

/-- Sizes have four bytes and a sign. -/
def size (n : Nat) : Writing Unit :=
  if n < 0x80000000 then i32 (Int32.ofNat n) else fail (.sizeOverflow n)

def binary (bs : Bytes) : Writing Unit := do
  size bs.length
  put bs

def string (s : String) : Writing Unit := binary (Text.toBytes s)

def wireType (t : WireType) : Writing Unit := put [t.code]

def fieldHeader (type : WireType) (id : Int16) : Writing Unit := do
  wireType type
  i16 id

/-- The end of a struct. -/
def fieldStop : Writing Unit := wireType .stop

/-- What stands before the elements of a list or a set. -/
def elementsHeader (element : WireType) (n : Nat) : Writing Unit := do
  wireType element
  size n

def entriesHeader (key value : WireType) (n : Nat) : Writing Unit := do
  wireType key
  wireType value
  size n

end Writing

end Thrift
