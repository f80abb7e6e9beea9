-- What can go wrong when a codec runs.
import Thrift.Codec.Fault
import Thrift.Wire.Fault

namespace Thrift

inductive Fault
  | endOfInput (needed available : Nat)
  | protocol (cause : ProtocolFault)
  | application (exception : ApplicationException)
  | codegen (cause : CodegenError)
deriving DecidableEq

def Fault.message : Fault → String
  | endOfInput needed available =>
    s!"Unexpected end of input: needed {needed} bytes, {available} available"
  | protocol cause => cause.message
  | application exception => exception.message
  | codegen cause => cause.message

end Thrift
