-- How calls end, for the one who calls and for the one who serves.
import Thrift.Codec.Service
import Thrift.Fault

namespace Thrift

def ApplicationException.unknown (message : String) : ApplicationException := ⟨.unknown, message⟩

def ApplicationException.unknownMethod (method : String) : ApplicationException :=
  ⟨.unknownMethod, s!"Unknown function {method}"⟩

/-- Why a call gives no value. -/
inductive CallError
  | application (exception : ApplicationException)
  | declared (exception : StructValue)
  | protocol (cause : Fault)
  | cancelled

def CallError.message : CallError → String
  | application exception => exception.message
  | declared exception => s!"Call raised declared exception {exception.name}"
  | protocol cause => cause.message
  | cancelled => "Call was dropped before a reply arrived"

/-- How a call ends. -/
abbrev CallOutcome := Except CallError Value

/-- What a service does with a call. A failure that is no declared exception has a text. -/
inductive HandlerOutcome
  | returned (v : Value)
  | declared (exception : StructValue)
  | failed (message : String)
  | panicked (message : Option String)

/-- The methods of a service, given the name and the arguments of a call. -/
abbrev Handler := String → StructValue → HandlerOutcome

/-- Why a message was not served. -/
inductive ProcessError
  | invalidArguments (method : String) (cause : Fault)
  | broken (cause : Fault)

def ProcessError.message : ProcessError → String
  | invalidArguments method cause =>
    s!"Failed to decode arguments for {method}: {cause.message}"
  | broken cause => cause.message

end Thrift
