-- Services as namespaces, each with the interface of its handlers, a client and a processor.
import Thrift.Script.Struct

namespace Thrift.Script

/-! ## Parts of methods -/

/-- A method with what its classes need to know of it. -/
structure MethodView where
  method : Method
  /-- The arguments that have a value. -/
  arguments : List FieldLayout

def MethodView.ofMethod (c : Compiled) (m : Method) : MethodView :=
  ⟨m, ((c.struct? m.argsStruct).map visibleFields).getD []⟩

namespace MethodView

def name (v : MethodView) : String := v.method.name

def returnType (v : MethodView) : String := typeOf v.method.returnType

def params (v : MethodView) : List String :=
  v.arguments.map fun f => f.name ++ ": " ++ typeOf f.type

def argumentNames (v : MethodView) : List String := v.arguments.map (·.name)

end MethodView

/-- A new instance with the given members. -/
def construct (struct : String) (members : String) : String :=
  "new " ++ struct ++ "(\x7b " ++ members ++ " \x7d);"

/-- The declaration of a constant that starts with a value. -/
def declared (name type value : String) : Piece :=
  .line ("const " ++ name ++ ": " ++ type ++ " = " ++ value)

/-- An exception of the runtime. -/
def applicationException (kind message : String) : String :=
  "new thrift.TApplicationException(thrift.TApplicationExceptionType." ++ kind ++ ", " ++
    message ++ ")"

/-- Reads past what nobody waits for. -/
def skipMessage : List Piece :=
  [.line "input.skip(thrift.TType.STRUCT);", .line "input.readMessageEnd();"]

/-- Writes an answer and sends it. -/
def replyLines (name type payload : String) : List Piece :=
  [.line ("output.writeMessageBegin(" ++ name ++ ", thrift.MessageType." ++ type ++
      ", requestId);"),
    .line (payload ++ ".write(output);"), .line "output.writeMessageEnd();",
    .line "output.flush();"]

/-! ## Handlers -/

def handlerLine (v : MethodView) : Piece :=
  .line (v.name ++ "(" ++ commas (v.params ++ ["context?: Context"]) ++ "): " ++ v.returnType ++
    " | Promise<" ++ v.returnType ++ ">;")

def handlerLines (views : List MethodView) : List Piece :=
  braced "export interface IHandler<Context = any>" (views.map handlerLine)

/-! ## Clients -/

def protocolType : String := "new (trans: thrift.TTransport) => thrift.TProtocol"

/-- What a client has besides its methods. -/
def clientState : List Piece :=
  [.line "public _seqid: number;",
    .line "public _reqs: \x7b [requestId: number]: (error: any, result?: any) => void \x7d;",
    .line "public output: thrift.TTransport;",
    .line ("public protocol: " ++ protocolType ++ ";")] ++
  braced ("constructor(output: thrift.TTransport, protocol: " ++ protocolType ++ ")")
    [.line "this._seqid = 0;", .line "this._reqs = \x7b\x7d;", .line "this.output = output;",
      .line "this.protocol = protocol;"] ++
  braced "public incrementSeqId(): number" [.line "return this._seqid += 1;"]

/-- Sends a call and promises what the answer brings. -/
def awaitLines (v : MethodView) (send : Piece) : List Piece :=
  enclosed ("return new Promise<" ++ v.returnType ++ ">((resolve, reject): void => \x7b")
    (enclosed "this._reqs[requestId] = (error: any, result?: any): void => \x7b"
      (.line "delete this._reqs[requestId];" ::
        chained [("if (error != null) \x7b", [.line "reject(error);"]),
          ("\x7d else \x7b", [.line "resolve(result);"])] "\x7d")
      "\x7d;" ++ [send])
    "\x7d);"

/-- The method that a caller uses. -/
def callLines (v : MethodView) : List Piece :=
  let send : Piece :=
    .line ("this.send_" ++ v.name ++ "(" ++ commas (v.argumentNames ++ ["requestId"]) ++ ");")
  braced ("public " ++ v.name ++ "(" ++ commas v.params ++ "): Promise<" ++ v.returnType ++ ">")
    (.line "const requestId: number = this.incrementSeqId();" ::
      (if v.method.oneway then [send, .line "return Promise.resolve();"] else awaitLines v send))

/-- The method that writes a call. -/
def sendLines (v : MethodView) : List Piece :=
  let type := if v.method.oneway then "ONEWAY" else "CALL"
  let params := v.params ++ ["requestId: number"]
  braced ("public send_" ++ v.name ++ "(" ++ commas params ++ "): void")
    [.line "const output: thrift.TProtocol = new this.protocol(this.output);",
      .line ("output.writeMessageBegin(" ++ quote v.name ++ ", thrift.MessageType." ++ type ++
        ", requestId);"),
      declared "args" v.method.argsStruct (construct v.method.argsStruct (commas v.argumentNames)),
      .line "args.write(output);", .line "output.writeMessageEnd();", .line "this.output.flush();"]

/-- Hands on a member of the result where it is set. -/
def returnIfSet (member callback : String) : List Piece :=
  braced ("if (result." ++ member ++ " != null)") [.line ("return callback(" ++ callback ++ ");")]

/-- The method that reads an answer. -/
def recvLines (v : MethodView) (result : String) : List Piece :=
  braced ("public recv_" ++ v.name ++
      "(input: thrift.TProtocol, mtype: thrift.MessageType, rseqid: number): void")
    ([.line "const callback = this._reqs[rseqid];"] ++
      braced "if (callback == null)" (skipMessage ++ [.line "return;"]) ++
      braced "if (mtype === thrift.MessageType.EXCEPTION)"
        [declared "x" "thrift.TApplicationException" "new thrift.TApplicationException();",
          .line "x.read(input);", .line "input.readMessageEnd();", .line "return callback(x);"] ++
      [declared "result" result (result ++ ".read(input);"), .line "input.readMessageEnd();"] ++
      returnIfSet Service.successField ("undefined, result." ++ Service.successField) ++
      (v.method.exceptions.flatMap fun slot => returnIfSet slot.field ("result." ++ slot.field)) ++
      [.line (if v.method.returnsVoid then "return callback(undefined);"
        else "return callback(" ++ applicationException "MISSING_RESULT"
          (quote (v.name ++ " failed: unknown result")) ++ ");")])

/-- All methods that serve one method of the service. -/
def clientMethodLines (v : MethodView) : List Piece :=
  callLines v ++ sendLines v ++
    match v.method.resultStruct with
    | some result => recvLines v result
    | none => []

/-- The method that tells answers apart. One-way methods have none. -/
def recvSwitch (views : List MethodView) : List Piece :=
  braced "public recv(input: thrift.TProtocol): void"
    (.line "const metadata: thrift.IThriftMessage = input.readMessageBegin();" ::
      braced "switch (metadata.fieldName)"
        (((views.filter (!·.method.oneway)).flatMap fun v =>
          [.line ("case " ++ quote v.name ++ ":"), .indent,
            .line ("this.recv_" ++ v.name ++ "(input, metadata.messageType, metadata.requestId);"),
            .line "return;", .dedent]) ++
          braced "default:" skipMessage))

def clientLines (views : List MethodView) : List Piece :=
  braced "export class Client"
    (clientState ++ views.flatMap clientMethodLines ++ recvSwitch views)

/-! ## Processors -/

/-- The method that tells calls apart. -/
def processSwitch (views : List MethodView) : List Piece :=
  braced ("public process(input: thrift.TProtocol, output: thrift.TProtocol, " ++
      "context?: Context): void")
    ([.line "const metadata: thrift.IThriftMessage = input.readMessageBegin();",
      .line "const requestId: number = metadata.requestId;"] ++
      braced "switch (metadata.fieldName)"
        ((views.flatMap fun v => braced ("case " ++ quote v.name ++ ":")
          [.line ("this.process_" ++ v.name ++ "(requestId, input, output, context);"),
            .line "return;"]) ++
          braced "default:" (skipMessage ++
            [declared "err" "thrift.TApplicationException" (applicationException "UNKNOWN_METHOD"
              "\"Unknown function \" + metadata.fieldName" ++ ";")] ++
            replyLines "metadata.fieldName" "EXCEPTION" "err" ++ [.line "return;"])))

/-- Reads the arguments and calls the handler. -/
def handleLines (v : MethodView) : List Piece :=
  let args := v.argumentNames.map ("args." ++ ·) ++ ["context"]
  chained
    [("try \x7b", [declared "args" v.method.argsStruct (v.method.argsStruct ++ ".read(input);"),
      .line "input.readMessageEnd();",
      .line ("resolve(this._handler." ++ v.name ++ "(" ++ commas args ++ "));")]),
    ("\x7d catch (err) \x7b", [.line "reject(err);"])] "\x7d"

/-- Answers with what the handler returned. -/
def successLines (v : MethodView) (result : String) : List Piece :=
  declared "result" result
    (if v.method.returnsVoid then "new " ++ result ++ "();"
      else construct result (Service.successField ++ ": data")) ::
    replyLines (quote v.name) "REPLY" "result"

/-- The test for a declared exception, and the answer that carries it. -/
def declaredBlock (v : MethodView) (result : String) (slot : ExceptionSlot) :
    String × List Piece :=
  ("if (err instanceof " ++ slot.exception ++ ") \x7b",
    declared "result" result (construct result (slot.field ++ ": err")) ::
      replyLines (quote v.name) "REPLY" "result")

/-- The answer to any other exception. -/
def undeclaredLines (v : MethodView) : List Piece :=
  declared "x" "thrift.TApplicationException"
    (applicationException "UNKNOWN" "err.message" ++ ";") ::
    replyLines (quote v.name) "EXCEPTION" "x"

/-- Answers with what the handler threw. The first declared exception that fits is the one. -/
def failureLines (v : MethodView) (result : String) : List Piece :=
  match v.method.exceptions.map (declaredBlock v result) with
  | [] => undeclaredLines v
  | first :: others =>
    chained (first :: (others.map fun (head, body) => ("\x7d else " ++ head, body)) ++
      [("\x7d else \x7b", undeclaredLines v)]) "\x7d"

/-- The method that answers one method of the service. A one-way call has no answer. -/
def processLines (v : MethodView) : List Piece :=
  let first :=
    ("new Promise<" ++ v.returnType ++ ">((resolve, reject): void => \x7b", handleLines v)
  braced ("public process_" ++ v.name ++ "(requestId: number, input: thrift.TProtocol, " ++
      "output: thrift.TProtocol, context?: Context): void")
    (match v.method.resultStruct with
    | none => chained [first] "\x7d).catch((): void => \x7b\x7d);"
    | some result =>
      chained [first,
        ("\x7d).then((data: " ++ v.returnType ++ "): void => \x7b", successLines v result),
        ("\x7d).catch((err: any): void => \x7b", failureLines v result)] "\x7d);")

def processorLines (views : List MethodView) : List Piece :=
  braced "export class Processor<Context = any>"
    ([.line "public _handler: IHandler<Context>;"] ++
      braced "constructor(handler: IHandler<Context>)" [.line "this._handler = handler;"] ++
      processSwitch views ++ views.flatMap processLines)

/-! ## Services -/

def serviceLines (c : Compiled) (s : ServiceCodec) : List Piece :=
  let views := s.methods.map (MethodView.ofMethod c)
  braced ("export namespace " ++ s.name)
    (handlerLines views ++ [.blank] ++ clientLines views ++ [.blank] ++ processorLines views)

end Thrift.Script
