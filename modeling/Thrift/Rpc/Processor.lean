-- Processors: a message comes in, the handler of the service is asked, and at most one frame
-- goes out.
import Thrift.Machine.Decode
import Thrift.Machine.Encode
import Thrift.Rpc.Outcome
import Thrift.Wire.Link

namespace Thrift

structure Processor where
  document : Compiled
  service : ServiceCodec
  handler : Handler

/-- What serving one message did: how it ended, the calls that the handler got, and what is left
of the input and the output. -/
structure Served where
  result : Except ProcessError Unit
  handled : List (String × StructValue)
  unread : Bytes
  output : Link

namespace Processor

def ofService (d : Compiled) (name : String) (handler : Handler) : Except Fault Processor :=
  match d.service? name with
  | some service => .ok ⟨d, service, handler⟩
  | none => .error (.codegen (.procedure (.noService name)))

/-! ## Answers -/

/-- The text of a failure that is no declared exception. -/
def panicText (message : Option String) : String :=
  "Handler panicked: " ++ message.getD "unknown panic"

/-- The result struct for what the handler did, or the exception to send in its place. -/
def resultOf (m : Method) : HandlerOutcome → Except ApplicationException StructValue
  | .returned v =>
    let result := StructValue.empty (m.resultStruct.getD "")
    .ok (if v.isVoid then result else result.set Service.successField v)
  | .declared exception =>
    match m.slot? exception.name with
    | some slot =>
      .ok ((StructValue.empty (m.resultStruct.getD "")).set slot.field exception.toValue)
    | none => .error (.unknown s!"{exception.name} is not declared by {m.name}")
  | .failed message => .error (.unknown message)
  | .panicked message => .error (.unknown (panicText message))

/-- A result that cannot be encoded becomes an exception. -/
def sendable (p : Processor) (config : WireConfig) (result : StructValue) :
    Except ApplicationException StructValue :=
  match Machine.validateAs p.document config.maxDepth result.name result with
  | .ok _ => .ok result
  | .error fault => .error (.unknown fault.message)

def replyMessage (p : Processor) (config : WireConfig) (h : MessageHeader) (result : StructValue) :
    Writing Unit := do
  MessageHeader.write config { h with type := .reply }
  Machine.encodeAs p.document config result.name result

def exceptionMessage (config : WireConfig) (h : MessageHeader) (e : ApplicationException) :
    Writing Unit := do
  MessageHeader.write config { h with type := .exception }
  e.write

/-- Writes a message and sends it as one frame. -/
def sendFrame (output : Link) (message : Writing Unit) : Except Fault Unit × Link :=
  match output.write message with
  | (.ok _, output) => (.ok (), output.flush)
  | (.error fault, output) => (.error fault, output)

/-- The message that answers a call of a two-way method. -/
def answer (p : Processor) (config : WireConfig) (h : MessageHeader) (m : Method)
    (outcome : HandlerOutcome) : Writing Unit :=
  match (resultOf m outcome).bind (p.sendable config) with
  | .ok result => p.replyMessage config h result
  | .error e => exceptionMessage config h e

/-! ## Serving -/

/-- The end of a run that sends a message last. -/
def ending (handled : List (String × StructValue)) (unread : Bytes) (output : Link)
    (message : Writing Unit) : Served :=
  match sendFrame output message with
  | (.ok _, output) => ⟨.ok (), handled, unread, output⟩
  | (.error fault, output) => ⟨.error (.broken fault), handled, unread, output⟩

/-- A message to a method that the service does not have. -/
def refuse (readConfig config : WireConfig) (h : MessageHeader) (unread : Bytes) (output : Link) :
    Served :=
  match (Reading.skip readConfig .struct).run unread with
  | .ok _ unread => ending [] unread output (exceptionMessage config h (.unknownMethod h.name))
  | .error fault unread => ⟨.error (.broken fault), [], unread, output⟩

/-- Arguments that cannot be read. A one-way call gets no answer. -/
def refuseArguments (config : WireConfig) (h : MessageHeader) (m : Method) (fault : Fault)
    (unread : Bytes) (output : Link) : Served :=
  let invalid : Except ProcessError Unit := .error (.invalidArguments m.name fault)
  if m.oneway then ⟨invalid, [], unread, output⟩
  else
    match sendFrame output (exceptionMessage config h ⟨.protocolError, fault.message⟩) with
    | (.ok _, output) => ⟨invalid, [], unread, output⟩
    | (.error fault, output) => ⟨.error (.broken fault), [], unread, output⟩

/-- A message to a method of the service. -/
def dispatch (p : Processor) (readConfig config : WireConfig) (h : MessageHeader) (m : Method)
    (unread : Bytes) (output : Link) : Served :=
  match (Machine.decode p.document readConfig m.argsStruct).run unread with
  | .error fault unread => refuseArguments config h m fault unread output
  | .ok args unread =>
    let outcome := p.handler m.name args
    if m.oneway then ⟨.ok (), [(m.name, args)], unread, output⟩
    else ending [(m.name, args)] unread output (p.answer config h m outcome)

/-- Serves exactly one message. `readConfig` is for the message and `config` for the answer. -/
def process (p : Processor) (readConfig config : WireConfig) (unread : Bytes) (output : Link) :
    Served :=
  match (MessageHeader.read readConfig).run unread with
  | .error fault unread => ⟨.error (.broken fault), [], unread, output⟩
  | .ok h unread =>
    match p.service.method? h.name with
    | none => refuse readConfig config h unread output
    | some m => p.dispatch readConfig config h m unread output

end Processor

end Thrift
