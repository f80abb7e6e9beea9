-- Clients: calls go out with a number each, and replies are matched with the calls by their
-- numbers, in whatever order they arrive.
import Thrift.Machine.Decode
import Thrift.Machine.Encode
import Thrift.Rpc.Outcome
import Thrift.Wire.Link

namespace Thrift

/-- What the owner of a call sees of it. The outcome can be taken once. -/
inductive CallState
  | waiting
  | settled (outcome : CallOutcome)
  | taken

/-- A call that waits for its reply; `call` is its place among all calls. -/
structure PendingCall where
  method : Method
  call : Nat

structure Client where
  document : Compiled
  service : ServiceCodec
  config : WireConfig
  link : Link
  /-- The last sequence number that was given out. -/
  sequenceId : Int32
  pending : List (Int32 × PendingCall)
  calls : List CallState

namespace Client

def ofService (d : Compiled) (name : String) (config : WireConfig) : Except Fault Client :=
  match d.service? name with
  | some service => .ok ⟨d, service, config, Link.empty, 0, [], []⟩
  | none => .error (.codegen (.procedure (.noService name)))

/-! ## Sequence numbers -/

/-- Gives out so many sequence numbers, of which the last one counts. -/
def advance (c : Client) (n : Nat) : Client :=
  { c with sequenceId := c.sequenceId + Int32.ofNat n }

/-! ## Calls and their owners -/

/-- Ends a call that is waiting. -/
def settleCall (c : Client) (call : Nat) (outcome : CallOutcome) : Client :=
  { c with calls := c.calls.modify call fun
      | .waiting => .settled outcome
      | state => state }

/-- Adds a call in this state. -/
def addCall (c : Client) (state : CallState) : Nat × Client :=
  (c.calls.length, { c with calls := c.calls ++ [state] })

def removePending (c : Client) (id : Int32) : Client :=
  { c with pending := c.pending.filter (·.1 != id) }

/-- Lets a call wait for the reply with this number. A call that waited for the same number is
cancelled. -/
def await (c : Client) (id : Int32) (p : PendingCall) : Client :=
  let c := match c.pending.lookup id with
    | some displaced => c.settleCall displaced.call (.error .cancelled)
    | none => c
  { c with pending := (id, p) :: (c.removePending id).pending }

/-- Cancels all calls that wait. -/
def cancelAll (c : Client) : Client :=
  { c with
    pending := []
    calls := c.calls.map fun
      | .waiting => .settled (.error .cancelled)
      | state => state }

/-- Looks at a call. A settled one is taken. -/
def poll (c : Client) (call : Nat) : CallState × Client :=
  match c.calls[call]? with
  | none => (.taken, c)
  | some (.settled outcome) => (.settled outcome, { c with calls := c.calls.set call .taken })
  | some state => (state, c)

/-! ## Sending -/

def method (c : Client) (name : String) : Except Fault Method :=
  match c.service.method? name with
  | some m => .ok m
  | none => .error (.application (.unknownMethod name))

/-- The message of a call. -/
def message (c : Client) (m : Method) (args : StructValue) : Writing Unit := do
  MessageHeader.write c.config ⟨m.name, if m.oneway then .oneway else .call, c.sequenceId⟩
  Machine.encodeAs c.document c.config m.argsStruct args

/-- Sends one message. Arguments that cannot be encoded are refused before anything is written
and before a number is given out. -/
def sendTo (c : Client) (m : Method) (args : StructValue) : Except Fault Int32 × Client :=
  match Machine.validateAs c.document c.config.maxDepth m.argsStruct args with
  | .error fault => (.error fault, c)
  | .ok _ =>
    let c := c.advance 1
    let (result, link) := c.link.write (c.message m args)
    match result with
    | .error fault => (.error fault, { c with link })
    | .ok _ => (.ok c.sequenceId, { c with link := link.flush })

/-- Sends a message to a method and gives its number. -/
def send (c : Client) (name : String) (args : StructValue) : Except Fault Int32 × Client :=
  match c.method name with
  | .error fault => (.error fault, c)
  | .ok m => c.sendTo m args

/-- Sends a message and lets a call wait for the reply. A one-way call is done when it is sent. -/
def call (c : Client) (name : String) (args : StructValue) : Except Fault (Int32 × Nat) × Client :=
  match c.method name with
  | .error fault => (.error fault, c)
  | .ok m =>
    match c.sendTo m args with
    | (.error fault, c) => (.error fault, c)
    | (.ok id, c) =>
      if m.oneway then
        let (call, c) := c.addCall (.settled (.ok .void))
        (.ok (id, call), c)
      else
        let (call, c) := c.addCall .waiting
        (.ok (id, call), c.await id ⟨m, call⟩)

/-! ## Receiving -/

/-- The first declared exception that the result holds. -/
def declaredIn (result : StructValue) : List ExceptionSlot → Option StructValue
  | [] => none
  | slot :: slots =>
    match result.get? slot.field with
    | some (.struct name fields) => some ⟨name, fields⟩
    | _ => declaredIn result slots

/-- A returned value comes first, then declared exceptions in the order of their slots. -/
def outcomeOf (m : Method) (result : StructValue) : CallOutcome :=
  match result.get? Service.successField with
  | some v => .ok v
  | none =>
    match declaredIn result m.exceptions with
    | some exception => .error (.declared exception)
    | none =>
      if m.returnsVoid then .ok .void
      else .error (.application ⟨.missingResult, s!"{m.name} failed: unknown result"⟩)

/-- Passes over the body of a message that cannot be an answer. -/
def refuseBody (config : WireConfig) (exception : ApplicationException) : Reading CallOutcome := do
  Reading.skip config .struct
  return .error (.application exception)

/-- Reads the body of a message that answers a call of a method. -/
def readBody (d : Compiled) (config : WireConfig) (m : Method) (h : MessageHeader) :
    Reading CallOutcome := do
  match h.type with
  | .exception => return .error (.application (← ApplicationException.read config))
  | .call | .oneway =>
    refuseBody config ⟨.invalidMessageType,
      s!"Received {h.type.title} message as a reply to {m.name}"⟩
  | .reply =>
    if h.name ≠ m.name then
      refuseBody config ⟨.wrongMethodName, s!"Reply for {m.name} arrived as {h.name}"⟩
    else
      match m.resultStruct with
      | none => throw (.codegen (.procedure (.onewayResult m.name)))
      | some struct => return outcomeOf m (← Machine.decode d config struct)

/-- A body that cannot be read is an outcome too. -/
def orProtocol (r : Reading CallOutcome) : Reading CallOutcome := fun unread =>
  match r unread with
  | .ok outcome unread => .ok outcome unread
  | .error fault unread => .ok (.error (.protocol fault)) unread

/-- Reads one message and settles the call that waits for its number. A message without such a
call is passed over. -/
def receive (c : Client) (config : WireConfig) : Reading Client := do
  let h ← MessageHeader.read config
  match c.pending.lookup h.sequenceId with
  | none =>
    Reading.skip config .struct
    return c
  | some p =>
    let outcome ← orProtocol (readBody c.document config p.method h)
    return (c.removePending h.sequenceId).settleCall p.call outcome

end Client

end Thrift
