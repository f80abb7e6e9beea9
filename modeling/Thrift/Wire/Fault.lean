-- What can go wrong between values and bytes.
import Thrift.Text.Utf8
import Thrift.Wire.Kind

namespace Thrift

/-- The block that an announced size belongs to. -/
inductive Sized
  | string
  | list
  | set
  | map
deriving DecidableEq, Repr

def Sized.word : Sized → String
  | string => "string"
  | list => "list"
  | set => "set"
  | map => "map"

inductive ProtocolFault
  | unknownWireType (code : UInt8)
  | unknownMessageType (code : UInt8)
  | invalidText (fault : Text.Utf8Fault)
  | invalidMessageName (fault : Text.Utf8Fault)
  | negativeSize (what : Sized) (size : Int32)
  | sizeLimit (what : Sized) (size limit : Nat)
  | nameSizeLimit (size : Nat)
  | sizeOverflow (size : Nat)
  | badVersion (word : UInt32)
  | missingVersion
  | stopSkipped
  | skipDepth
  | structDepth (struct : String) (limit : Nat)
  | fieldCount (union : String) (found : Nat)
  | emptyUnion (union : String)
  | crowdedUnion (union : String) (found : Nat)
  | unsetField (field : String)
  | unreadable (struct : String)
  | wrongValue (expected found : String)
deriving DecidableEq

/-- The broad kinds of wire faults. -/
inductive ProtocolFault.Kind
  | invalidData
  | negativeSize
  | sizeLimit
  | badVersion
  | depthLimit
  | missingRequiredField
deriving DecidableEq, Repr

namespace ProtocolFault

def kind : ProtocolFault → Kind
  | unknownWireType _ | unknownMessageType _ | invalidText _ | invalidMessageName _ => .invalidData
  | negativeSize _ _ => .negativeSize
  | sizeLimit _ _ _ | nameSizeLimit _ | sizeOverflow _ => .sizeLimit
  | badVersion _ | missingVersion => .badVersion
  | stopSkipped => .invalidData
  | skipDepth | structDepth _ _ => .depthLimit
  | fieldCount _ _ | emptyUnion _ | crowdedUnion _ _ => .invalidData
  | unsetField _ | unreadable _ => .missingRequiredField
  | wrongValue _ _ => .invalidData

/-- Eight hexadecimal digits. -/
def hexWord (w : UInt32) : String :=
  let digits := Nat.toDigits 16 w.toNat
  "0x" ++ String.ofList (List.replicate (8 - digits.length) '0' ++ digits)

def message : ProtocolFault → String
  | unknownWireType code => s!"Unknown wire type {code}"
  | unknownMessageType code => s!"Unknown message type {code}"
  | invalidText fault => "Invalid UTF-8 string: " ++ fault.message
  | invalidMessageName fault => "Invalid message name: " ++ fault.message
  | negativeSize what size => s!"Negative {what.word} size: {size}"
  | sizeLimit what size limit => s!"{what.word} size {size} exceeds limit {limit}"
  | nameSizeLimit size => s!"Message name size {size} exceeds limit"
  | sizeOverflow size => s!"Size {size} does not fit the wire format"
  | badVersion word => "Bad version in readMessageBegin: " ++ hexWord word
  | missingVersion => "No version identifier found in readMessageBegin"
  | stopSkipped => "Cannot skip a STOP marker"
  | skipDepth => "Maximum skip depth exceeded"
  | structDepth struct limit => s!"Struct {struct} nests deeper than {limit} levels"
  | fieldCount union found => s!"Union {union} must have exactly one field set, found {found}"
  | emptyUnion union => s!"Union {union} was decoded with no field set"
  | crowdedUnion union found => s!"Union {union} was decoded with {found} fields set"
  | unsetField field => s!"Required field {field} is unset!"
  | unreadable struct => s!"Unable to read {struct} from input"
  | wrongValue expected found => s!"Expected {expected} value, found {found}"

end ProtocolFault

/-- An exception that a service reports about the call itself. -/
structure ApplicationException where
  kind : ExceptionKind
  message : String
deriving DecidableEq

end Thrift
