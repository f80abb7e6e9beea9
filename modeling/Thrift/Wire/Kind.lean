-- The tags of the wire: types of values, types of messages, and kinds of application
-- exceptions, each with its number.

namespace Thrift

/-! ## Types of values -/

/-- The tag that stands before every field and every element block. -/
inductive WireType
  | stop
  | void
  | bool
  | byte
  | double
  | i16
  | i32
  | i64
  | string
  | struct
  | map
  | set
  | list
deriving DecidableEq, Repr, Inhabited

namespace WireType

def code : WireType → UInt8
  | stop => 0
  | void => 1
  | bool => 2
  | byte => 3
  | double => 4
  | i16 => 6
  | i32 => 8
  | i64 => 10
  | string => 11
  | struct => 12
  | map => 13
  | set => 14
  | list => 15

def all : List WireType :=
  [stop, void, bool, byte, double, i16, i32, i64, string, struct, map, set, list]

/-- The type of a number; not every number has one. -/
def ofCode? (code : UInt8) : Option WireType := all.find? (·.code == code)

def word : WireType → String
  | stop => "STOP"
  | void => "VOID"
  | bool => "BOOL"
  | byte => "BYTE"
  | double => "DOUBLE"
  | i16 => "I16"
  | i32 => "I32"
  | i64 => "I64"
  | string => "STRING"
  | struct => "STRUCT"
  | map => "MAP"
  | set => "SET"
  | list => "LIST"

end WireType

/-! ## Types of messages -/

inductive MessageType
  | call
  | reply
  | exception
  | oneway
deriving DecidableEq, Repr

namespace MessageType

def code : MessageType → UInt8
  | call => 1
  | reply => 2
  | exception => 3
  | oneway => 4

def all : List MessageType := [call, reply, exception, oneway]

def ofCode? (code : UInt8) : Option MessageType := all.find? (·.code == code)

def word : MessageType → String
  | call => "CALL"
  | reply => "REPLY"
  | exception => "EXCEPTION"
  | oneway => "ONEWAY"

/-- The type inside a sentence. -/
def title : MessageType → String
  | call => "Call"
  | reply => "Reply"
  | exception => "Exception"
  | oneway => "Oneway"

end MessageType

/-! ## Kinds of application exceptions -/

inductive ExceptionKind
  | unknown
  | unknownMethod
  | invalidMessageType
  | wrongMethodName
  | badSequenceId
  | missingResult
  | internalError
  | protocolError
  | invalidTransform
  | invalidProtocol
  | unsupportedClientType
deriving DecidableEq, Repr

namespace ExceptionKind

def code : ExceptionKind → Int32
  | unknown => 0
  | unknownMethod => 1
  | invalidMessageType => 2
  | wrongMethodName => 3
  | badSequenceId => 4
  | missingResult => 5
  | internalError => 6
  | protocolError => 7
  | invalidTransform => 8
  | invalidProtocol => 9
  | unsupportedClientType => 10

def all : List ExceptionKind :=
  [unknown, unknownMethod, invalidMessageType, wrongMethodName, badSequenceId, missingResult,
    internalError, protocolError, invalidTransform, invalidProtocol, unsupportedClientType]

/-- The kind of a number; a number without a kind of its own is unknown. -/
def ofCode (code : Int32) : ExceptionKind := (all.find? (·.code == code)).getD unknown

def word : ExceptionKind → String
  | unknown => "UNKNOWN"
  | unknownMethod => "UNKNOWN_METHOD"
  | invalidMessageType => "INVALID_MESSAGE_TYPE"
  | wrongMethodName => "WRONG_METHOD_NAME"
  | badSequenceId => "BAD_SEQUENCE_ID"
  | missingResult => "MISSING_RESULT"
  | internalError => "INTERNAL_ERROR"
  | protocolError => "PROTOCOL_ERROR"
  | invalidTransform => "INVALID_TRANSFORM"
  | invalidProtocol => "INVALID_PROTOCOL"
  | unsupportedClientType => "UNSUPPORTED_CLIENT_TYPE"

end ExceptionKind

end Thrift
