-- Messages: the header that names a call and its answer, with a version word or without, and
-- the exceptions that a service reports about a call itself.
import Thrift.Wire.Reader
import Thrift.Wire.Writer

namespace Thrift

structure MessageHeader where
  name : String
  type : MessageType
  sequenceId : Int32
deriving DecidableEq

namespace MessageHeader

/-- The version word without the message type in its last byte. -/
def version : UInt32 := 0x80010000

def versionMask : UInt32 := 0xffff0000

/-- A header with a version word starts with a negative number, one without starts with the
size of the name. -/
def write (c : WireConfig) (h : MessageHeader) : Writing Unit := do
  if c.strictWrite then
    Writing.i32 (version ||| h.type.code.toUInt32).toInt32
    Writing.string h.name
  else
    Writing.string h.name
    Writing.put [h.type.code]
  Writing.i32 h.sequenceId

/-- The type of a message by its number. -/
def readType (code : UInt8) : Reading MessageType :=
  match MessageType.ofCode? code with
  | some t => return t
  | none => Reading.fail (.unknownMessageType code)

/-- A header with a version word, after the word. -/
def readVersioned (c : WireConfig) (word : UInt32) : Reading MessageHeader := do
  if word &&& versionMask ≠ version then Reading.fail (.badVersion word)
  let type ← readType word.toUInt8
  let name ← Reading.string c
  return ⟨name, type, ← Reading.i32⟩

/-- A header without a version word, after the size of the name. -/
def readPlain (c : WireConfig) (size : Nat) : Reading MessageHeader := do
  if c.strictRead then Reading.fail .missingVersion
  if c.maxStringSize < size then Reading.fail (.nameSizeLimit size)
  let name ← match Text.ofBytes (← Reading.take size) with
    | .ok name => pure name
    | .error fault => Reading.fail (.invalidMessageName fault)
  let type ← readType (← Reading.byte).toUInt8
  return ⟨name, type, ← Reading.i32⟩

def read (c : WireConfig) : Reading MessageHeader := do
  let first ← Reading.i32
  if first < 0 then readVersioned c first.toUInt32 else readPlain c first.toInt.toNat

end MessageHeader

namespace ApplicationException

/-- The text is field 1 and the number of the kind is field 2. -/
def write (e : ApplicationException) : Writing Unit := do
  Writing.fieldHeader .string 1
  Writing.string e.message
  Writing.fieldHeader .i32 2
  Writing.i32 e.kind.code
  Writing.fieldStop

/-- Takes the field into account when it has the id and the type of a known one, and passes
over it otherwise. -/
def readField (c : WireConfig) (header : Reading.FieldHeader) (e : ApplicationException) :
    Reading ApplicationException := do
  if header.id = 1 ∧ header.type = .string then
    return { e with message := ← Reading.string c }
  else if header.id = 2 ∧ header.type = .i32 then
    return { e with kind := ExceptionKind.ofCode (← Reading.i32) }
  else
    Reading.skip c header.type
    return e

def read (c : WireConfig) : Reading ApplicationException :=
  Reading.fields (readField c) ⟨.unknown, ""⟩

end ApplicationException

end Thrift
