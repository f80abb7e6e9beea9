-- What a processor answers. Serving a message sends at most one frame, which carries the name and
-- the number of the message, and asks the handler at most once.
import Thrift.Proofs.Message
import Thrift.Proofs.Methods
import Thrift.Rpc.Processor

namespace Thrift

/-! ## Frames -/

/-- The link after one more frame. -/
def Link.sent (l : Link) (frame : Bytes) : Link := { l with frames := l.frames ++ [frame] }

/-- The frame of an answer to a message. -/
def MessageHeader.answer (strict : Bool) (h : MessageHeader) (type : MessageType) (body : Bytes) :
    Bytes := bytes strict { h with type } ++ body

namespace Link

variable {l : Link} {h : MessageHeader}

/-- A message is written as a whole when its parts can be written. -/
theorem write_message (hunsent : l.unsent = []) (config : WireConfig) (hname : Text.Short h.name)
    {body : Writing Unit} (hbody : body.Succeeds) :
    l.write (MessageHeader.write config h >>= fun _ => body) =
      (.ok (), { l with unsent := h.bytes config.strictWrite ++ body.bytes }) := by
  have hheader : (MessageHeader.write config h).Succeeds :=
    MessageHeader.write_succeeds_iff.mpr hname
  unfold write
  rw [Writing.succeeds_bind_iff.mpr ⟨hheader, hbody⟩, Writing.bytes_bind hheader,
    MessageHeader.write_bytes hname, hunsent, List.nil_append]

/-- A message that was written becomes one frame. -/
theorem flush_message (hunsent : l.unsent = []) (strict : Bool) (h : MessageHeader)
    (body : Bytes) : ({ l with unsent := h.bytes strict ++ body } : Link).flush =
      l.sent (h.bytes strict ++ body) := by
  have hne : ¬ (h.bytes strict ++ body).isEmpty = true := by
    intro hempty
    have hlength := congrArg List.length (List.isEmpty_iff.mp hempty)
    rw [MessageHeader.bytes, List.length_append, List.length_append, BigEndian.length_bytes,
      List.length_nil] at hlength
    omega
  rw [flush, if_neg hne, ← hunsent]
  rfl

end Link

namespace Processor

open Writing (Succeeds)

variable {p : Processor} {config : WireConfig} {h : MessageHeader} {output : Link}

/-- A body that can be written becomes one frame behind the header of the answer. -/
theorem sendFrame_eq (hunsent : output.unsent = []) (hname : Text.Short h.name)
    (type : MessageType) {body : Writing Unit} (hbody : body.Succeeds) :
    sendFrame output (MessageHeader.write config { h with type } >>= fun _ => body) =
      (.ok (), output.sent (h.answer config.strictWrite type body.bytes)) := by
  have hname' : Text.Short ({ h with type } : MessageHeader).name := hname
  rw [sendFrame, Link.write_message hunsent config hname' hbody]
  exact congrArg _ (Link.flush_message hunsent config.strictWrite { h with type } body.bytes)

theorem sendFrame_exception (hunsent : output.unsent = []) (hname : Text.Short h.name)
    {e : ApplicationException} (he : Text.Short e.message) :
    sendFrame output (exceptionMessage config h e) =
      (.ok (), output.sent (h.answer config.strictWrite .exception e.bytes)) := by
  rw [← ApplicationException.write_bytes he]
  exact sendFrame_eq hunsent hname .exception (ApplicationException.write_succeeds_iff.mpr he)

theorem sendFrame_reply {s : Schema} (hs : p.document.RealizesSchema s)
    (hunsent : output.unsent = []) (hname : Text.Short h.name) {result : StructValue}
    (hresult : s.ConformsWithin config.maxDepth result.name result) :
    sendFrame output (p.replyMessage config h result) =
      (.ok (), output.sent (h.answer config.strictWrite .reply (s.bytes result.name result))) := by
  have hsucceeds := (Machine.encodeAs_succeeds_iff hs).mpr hresult
  rw [← Machine.encodeAs_bytes hs hsucceeds]
  exact sendFrame_eq hunsent hname .reply hsucceeds

/-! ## Outcomes -/

/-- The result struct that carries what a handler returned or declared. -/
inductive Carries (m : Method) (struct : String) : HandlerOutcome → StructValue → Prop
  | nothing : Carries m struct (.returned .void) ⟨struct, []⟩
  | value {v : Value} (hv : v.isVoid = false) :
      Carries m struct (.returned v) ⟨struct, [(Service.successField, v)]⟩
  | declared {e : StructValue} {slot : ExceptionSlot} (hslot : m.slot? e.name = some slot) :
      Carries m struct (.declared e) ⟨struct, [(slot.field, e.toValue)]⟩

/-- The text for an outcome that no result struct carries, or none that can be encoded. -/
inductive Fails (p : Processor) (config : WireConfig) (m : Method) : HandlerOutcome → String → Prop
  | failed {text : String} : Fails p config m (.failed text) text
  | panicked {text : Option String} : Fails p config m (.panicked text) (panicText text)
  | undeclared {e : StructValue} (hslot : m.slot? e.name = none) :
      Fails p config m (.declared e) s!"{e.name} is not declared by {m.name}"
  | unencodable {outcome : HandlerOutcome} {struct : String} {result : StructValue} {fault : Fault}
      (hstruct : m.resultStruct = some struct) (hresult : Carries m struct outcome result)
      (hfault : Machine.validateAs p.document config.maxDepth struct result = .error fault) :
      Fails p config m outcome fault.message

variable {m : Method} {struct : String} {outcome : HandlerOutcome}

theorem Carries.name_eq {result : StructValue} (hc : Carries m struct outcome result) :
    result.name = struct := by
  cases hc <;> rfl

/-- An outcome gives the result struct that carries it, or there is none and a text. -/
theorem resultOf_cases (p : Processor) (config : WireConfig)
    (hstruct : m.resultStruct = some struct) (outcome : HandlerOutcome) :
    (∃ result, Carries m struct outcome result ∧ resultOf m outcome = .ok result ∧
      ∀ other, Carries m struct outcome other → other = result) ∨
    ∃ text, p.Fails config m outcome text ∧ resultOf m outcome = .error (.unknown text) ∧
      ∀ result, ¬ Carries m struct outcome result := by
  have hname : m.resultStruct.getD "" = struct := by rw [hstruct]; rfl
  cases outcome with
  | returned v =>
    left
    rcases hv : v.isVoid with _ | _
    · refine ⟨_, .value hv, ?_, fun other ho => ?_⟩
      · simp only [resultOf, hname, hv]
        rfl
      · cases ho with
        | nothing => cases hv
        | value _ => rfl
    · cases v <;> cases hv
      refine ⟨_, .nothing, ?_, fun other ho => ?_⟩
      · simp only [resultOf, hname]
        rfl
      · cases ho with
        | nothing => rfl
        | value hv => cases hv
  | declared e =>
    rcases hslot : m.slot? e.name with _ | slot
    · right
      refine ⟨_, .undeclared hslot, by rw [resultOf, hslot], fun result hr => ?_⟩
      cases hr with
      | declared hslot' => cases hslot.symm.trans hslot'
    · left
      refine ⟨_, .declared hslot, ?_, fun other ho => ?_⟩
      · simp only [resultOf, hslot, hname]
        rfl
      · cases ho with
        | declared hslot' =>
          cases hslot.symm.trans hslot'
          rfl
  | failed text => exact .inr ⟨text, .failed, rfl, fun result hr => nomatch hr⟩
  | panicked text => exact .inr ⟨_, .panicked, rfl, fun result hr => nomatch hr⟩

/-! ## Serving -/

/-- The exceptions that serving a message may send. -/
inductive Raises (p : Processor) (readConfig config : WireConfig) (input : Bytes) :
    ApplicationException → Prop
  | unknownMethod {h : MessageHeader} {body rest : Bytes}
      (hread : MessageHeader.read readConfig input = .ok h body)
      (hm : p.service.method? h.name = none)
      (hskip : Reading.skip readConfig .struct body = .ok () rest) :
      Raises p readConfig config input (.unknownMethod h.name)
  | arguments {h : MessageHeader} {m : Method} {body rest : Bytes} {fault : Fault}
      (hread : MessageHeader.read readConfig input = .ok h body)
      (hm : p.service.method? h.name = some m) (htwo : m.oneway = false)
      (hargs : Machine.decode p.document readConfig m.argsStruct body = .error fault rest) :
      Raises p readConfig config input ⟨.protocolError, fault.message⟩
  | outcome {h : MessageHeader} {m : Method} {args : StructValue} {body rest : Bytes}
      {text : String} (hread : MessageHeader.read readConfig input = .ok h body)
      (hm : p.service.method? h.name = some m) (htwo : m.oneway = false)
      (hargs : Machine.decode p.document readConfig m.argsStruct body = .ok args rest)
      (hfails : p.Fails config m (p.handler m.name args) text) :
      Raises p readConfig config input (.unknown text)

/-- What serving one message must do, for each way in which it can go. -/
structure Answers (s : Schema) (p : Processor) (readConfig config : WireConfig) (input : Bytes)
    (output : Link) (served : Served) : Prop where
  /-- Nothing is left unsent, and at most one frame is added; it repeats the name and the number
  of the message. -/
  flushed : served.output.unsent = []
  one_frame : served.output.frames = output.frames ∨ ∃ h body type content,
    MessageHeader.read readConfig input = .ok h body ∧ (type = .reply ∨ type = .exception) ∧
      served.output.frames = output.frames ++ [h.answer config.strictWrite type content]
  unparsed : ∀ fault rest, MessageHeader.read readConfig input = .error fault rest →
    served = ⟨.error (.broken fault), [], rest, output⟩
  /-- Messages to methods that the service does not have. -/
  unskipped : ∀ h body fault rest, MessageHeader.read readConfig input = .ok h body →
    p.service.method? h.name = none → Reading.skip readConfig .struct body = .error fault rest →
      served = ⟨.error (.broken fault), [], rest, output⟩
  unknown : ∀ h body rest, MessageHeader.read readConfig input = .ok h body →
    p.service.method? h.name = none → Reading.skip readConfig .struct body = .ok () rest →
      served = ⟨.ok (), [], rest, output.sent (h.answer config.strictWrite .exception
        (ApplicationException.unknownMethod h.name).bytes)⟩
  /-- Arguments that cannot be read are reported, unless the method is one-way. -/
  invalid : ∀ h body m fault rest, MessageHeader.read readConfig input = .ok h body →
    p.service.method? h.name = some m →
    Machine.decode p.document readConfig m.argsStruct body = .error fault rest →
      served = ⟨.error (.invalidArguments m.name fault), [], rest, if m.oneway then output
        else output.sent (h.answer config.strictWrite .exception
          (ApplicationException.bytes ⟨.protocolError, fault.message⟩))⟩
  oneway : ∀ h body m args rest, MessageHeader.read readConfig input = .ok h body →
    p.service.method? h.name = some m → m.oneway = true →
    Machine.decode p.document readConfig m.argsStruct body = .ok args rest →
      served = ⟨.ok (), [(m.name, args)], rest, output⟩
  /-- A result that can be encoded is sent, and a text in place of any other. -/
  replied : ∀ h body m args rest, MessageHeader.read readConfig input = .ok h body →
    p.service.method? h.name = some m → m.oneway = false →
    Machine.decode p.document readConfig m.argsStruct body = .ok args rest →
    ∀ struct result, m.resultStruct = some struct →
      Carries m struct (p.handler m.name args) result →
      s.ConformsWithin config.maxDepth struct result →
        served = ⟨.ok (), [(m.name, args)], rest,
          output.sent (h.answer config.strictWrite .reply (s.bytes struct result))⟩
  refused : ∀ h body m args rest, MessageHeader.read readConfig input = .ok h body →
    p.service.method? h.name = some m → m.oneway = false →
    Machine.decode p.document readConfig m.argsStruct body = .ok args rest →
    (∀ struct result, m.resultStruct = some struct →
      Carries m struct (p.handler m.name args) result →
        ¬ s.ConformsWithin config.maxDepth struct result) →
      ∃ text, p.Fails config m (p.handler m.name args) text ∧
        served = ⟨.ok (), [(m.name, args)], rest, output.sent (h.answer config.strictWrite
          .exception (ApplicationException.unknown text).bytes)⟩

variable {readConfig : WireConfig} {input body : Bytes}

theorem process_of_read (hread : MessageHeader.read readConfig input = .ok h body) :
    p.process readConfig config input output = match p.service.method? h.name with
      | none => refuse readConfig config h body output
      | some m => p.dispatch readConfig config h m body output := by
  unfold process EStateM.run
  generalize MessageHeader.read readConfig input = result at hread
  subst hread
  rfl

theorem ending_eq {output' : Link} {message : Writing Unit}
    (h : sendFrame output message = (.ok (), output')) (handled : List (String × StructValue))
    (unread : Bytes) :
    ending handled unread output message = ⟨.ok (), handled, unread, output'⟩ := by
  rw [ending, h]

/-- An outcome is sent as the result that carries it, or as a text. -/
theorem answer_cases {s : Schema} (hs : p.document.RealizesSchema s) (config : WireConfig)
    (h : MessageHeader) (hstruct : m.resultStruct = some struct) (outcome : HandlerOutcome) :
    (∃ result, Carries m struct outcome result ∧ s.ConformsWithin config.maxDepth struct result ∧
      (∀ other, Carries m struct outcome other → other = result) ∧
      p.answer config h m outcome = p.replyMessage config h result) ∨
    ∃ text, p.Fails config m outcome text ∧
      (∀ result, Carries m struct outcome result →
        ¬ s.ConformsWithin config.maxDepth struct result) ∧
      p.answer config h m outcome = exceptionMessage config h (.unknown text) := by
  rw [answer]
  rcases resultOf_cases p config hstruct outcome with
    ⟨result, hc, hof, honly⟩ | ⟨text, hf, hof, hno⟩
  · rw [hof]
    dsimp only [Except.bind]
    rw [sendable, hc.name_eq]
    rcases hv : Machine.validateAs p.document config.maxDepth struct result with fault | ⟨⟩
    · refine .inr ⟨fault.message, .unencodable hstruct hc hv, fun other ho hconforms => ?_, rfl⟩
      rw [honly other ho] at hconforms
      cases hv.symm.trans ((Machine.validateAs_eq_ok_iff hs).mpr hconforms)
    · exact .inl ⟨result, hc, (Machine.validateAs_eq_ok_iff hs).mp hv, honly, rfl⟩
  · rw [hof]
    exact .inr ⟨text, hf, fun result hc => absurd hc (hno result), rfl⟩

theorem process_unparsed {fault : Fault} {rest : Bytes}
    (hread : MessageHeader.read readConfig input = .error fault rest) :
    p.process readConfig config input output = ⟨.error (.broken fault), [], rest, output⟩ := by
  unfold process EStateM.run
  rw [hread]

theorem process_unskipped {fault : Fault} {rest : Bytes}
    (hread : MessageHeader.read readConfig input = .ok h body)
    (hm : p.service.method? h.name = none)
    (hskip : Reading.skip readConfig .struct body = .error fault rest) :
    p.process readConfig config input output = ⟨.error (.broken fault), [], rest, output⟩ := by
  rw [process_of_read hread, hm]
  dsimp only [refuse, EStateM.run]
  rw [hskip]

theorem process_unknown {rest : Bytes} (hunsent : output.unsent = [])
    (hread : MessageHeader.read readConfig input = .ok h body)
    (hm : p.service.method? h.name = none)
    (hskip : Reading.skip readConfig .struct body = .ok () rest)
    (htext : Text.Short (ApplicationException.unknownMethod h.name).message) :
    p.process readConfig config input output = ⟨.ok (), [], rest,
      output.sent (h.answer config.strictWrite .exception
        (ApplicationException.unknownMethod h.name).bytes)⟩ := by
  rw [process_of_read hread, hm]
  dsimp only [refuse, EStateM.run]
  rw [hskip]
  exact ending_eq (sendFrame_exception hunsent (MessageHeader.read_short hread) htext) [] rest

theorem process_invalid {fault : Fault} {rest : Bytes} (hunsent : output.unsent = [])
    (hread : MessageHeader.read readConfig input = .ok h body)
    (hm : p.service.method? h.name = some m)
    (hargs : Machine.decode p.document readConfig m.argsStruct body = .error fault rest)
    (htext : m.oneway = false → Text.Short fault.message) :
    p.process readConfig config input output =
      ⟨.error (.invalidArguments m.name fault), [], rest, if m.oneway then output
        else output.sent (h.answer config.strictWrite .exception
          (ApplicationException.bytes ⟨.protocolError, fault.message⟩))⟩ := by
  rw [process_of_read hread, hm]
  dsimp only [dispatch, EStateM.run]
  rw [hargs]
  dsimp only [refuseArguments]
  rcases htwo : m.oneway with _ | _
  · rw [if_neg Bool.false_ne_true, if_neg Bool.false_ne_true,
      sendFrame_exception (e := ⟨.protocolError, fault.message⟩) hunsent
        (MessageHeader.read_short hread) (htext htwo)]
  · rw [if_pos rfl, if_pos rfl]

theorem process_oneway {args : StructValue} {rest : Bytes}
    (hread : MessageHeader.read readConfig input = .ok h body)
    (hm : p.service.method? h.name = some m) (honeway : m.oneway = true)
    (hargs : Machine.decode p.document readConfig m.argsStruct body = .ok args rest) :
    p.process readConfig config input output = ⟨.ok (), [(m.name, args)], rest, output⟩ := by
  rw [process_of_read hread, hm]
  dsimp only [dispatch, EStateM.run]
  rw [hargs]
  exact if_pos honeway

/-- The handler is asked once, and its outcome is sent. -/
theorem process_handled {args : StructValue} {rest : Bytes}
    (hread : MessageHeader.read readConfig input = .ok h body)
    (hm : p.service.method? h.name = some m) (htwo : m.oneway = false)
    (hargs : Machine.decode p.document readConfig m.argsStruct body = .ok args rest) :
    p.process readConfig config input output =
      ending [(m.name, args)] rest output (p.answer config h m (p.handler m.name args)) := by
  rw [process_of_read hread, hm]
  dsimp only [dispatch, EStateM.run]
  rw [hargs]
  dsimp only
  rw [htwo]
  exact if_neg Bool.false_ne_true

theorem process_replied {s : Schema} (hs : p.document.RealizesSchema s) {args : StructValue}
    {rest : Bytes} (hunsent : output.unsent = [])
    (hread : MessageHeader.read readConfig input = .ok h body)
    (hm : p.service.method? h.name = some m) (htwo : m.oneway = false)
    (hargs : Machine.decode p.document readConfig m.argsStruct body = .ok args rest)
    {result : StructValue} (hstruct : m.resultStruct = some struct)
    (hc : Carries m struct (p.handler m.name args) result)
    (hconforms : s.ConformsWithin config.maxDepth struct result) :
    p.process readConfig config input output = ⟨.ok (), [(m.name, args)], rest,
      output.sent (h.answer config.strictWrite .reply (s.bytes struct result))⟩ := by
  rw [process_handled hread hm htwo hargs]
  rcases answer_cases hs config h hstruct (p.handler m.name args) with
    ⟨result', hc', -, honly, hanswer⟩ | ⟨text, -, hno, -⟩
  · cases honly result hc
    have hname := hc.name_eq
    subst hname
    rw [hanswer]
    exact ending_eq (sendFrame_reply hs hunsent (MessageHeader.read_short hread) hconforms) _ rest
  · exact absurd hconforms (hno result hc)

theorem process_refused {s : Schema} (hs : p.document.RealizesSchema s) {args : StructValue}
    {rest : Bytes} (hunsent : output.unsent = [])
    (hread : MessageHeader.read readConfig input = .ok h body)
    (hm : p.service.method? h.name = some m) (htwo : m.oneway = false)
    (hargs : Machine.decode p.document readConfig m.argsStruct body = .ok args rest)
    (hstruct : m.resultStruct = some struct)
    (hno : ∀ result, Carries m struct (p.handler m.name args) result →
      ¬ s.ConformsWithin config.maxDepth struct result)
    (htext : ∀ text, p.Fails config m (p.handler m.name args) text → Text.Short text) :
    ∃ text, p.Fails config m (p.handler m.name args) text ∧
      p.process readConfig config input output = ⟨.ok (), [(m.name, args)], rest,
        output.sent (h.answer config.strictWrite .exception
          (ApplicationException.unknown text).bytes)⟩ := by
  rw [process_handled hread hm htwo hargs]
  rcases answer_cases hs config h hstruct (p.handler m.name args) with
    ⟨result, hc, hconforms, -, -⟩ | ⟨text, hfails, -, hanswer⟩
  · exact absurd hconforms (hno result hc)
  · refine ⟨text, hfails, ?_⟩
    rw [hanswer]
    exact ending_eq (sendFrame_exception (e := .unknown text) hunsent
      (MessageHeader.read_short hread) (htext text hfails)) _ rest

theorem ofService_eq_ok {d : Compiled} {name : String} {handler : Handler}
    (h : Processor.ofService d name handler = .ok p) :
    ∃ service, d.service? name = some service ∧ p = ⟨d, service, handler⟩ := by
  unfold Processor.ofService at h
  split at h
  · rename_i service hservice
    cases h
    exact ⟨service, hservice, rfl⟩
  · cases h

/-- The two-way methods of a processor of a compiled service have result structs. -/
theorem results_of_ofService {d : Document} {c : Compiled} {s : Schema} (hc : d.compile = .ok c)
    (hschema : d.schema = .ok s) (hs : c.RealizesSchema s) {name : String} {handler : Handler}
    (hp : Processor.ofService c name handler = .ok p) :
    p.document.RealizesSchema s ∧
      ∀ m ∈ p.service.methods, m.oneway = false → ∃ struct, m.resultStruct = some struct := by
  obtain ⟨service, hservice, rfl⟩ := ofService_eq_ok hp
  obtain ⟨t, ht, hdeclared⟩ := Document.declares_of_compile hc
  refine ⟨hs, fun m hm htwo => ?_⟩
  have hm := hdeclared service (List.mem_of_find?_eq_some hservice) m hm
  obtain ⟨struct, form, hstruct, -, -⟩ := hm.result hc ht hschema hs htwo
  exact ⟨struct, hstruct⟩

/-- The frame that a message adds to the output, if it adds one. -/
theorem process_output {s : Schema} (hs : p.document.RealizesSchema s)
    (hresults : ∀ m ∈ p.service.methods, m.oneway = false → ∃ struct, m.resultStruct = some struct)
    (hunsent : output.unsent = [])
    (htexts : ∀ e, p.Raises readConfig config input e → Text.Short e.message) :
    (p.process readConfig config input output).output = output ∨ ∃ h body type content,
      MessageHeader.read readConfig input = .ok h body ∧ (type = .reply ∨ type = .exception) ∧
        (p.process readConfig config input output).output =
          output.sent (h.answer config.strictWrite type content) := by
  rcases hread : MessageHeader.read readConfig input with ⟨h, body⟩ | ⟨fault, rest⟩
  · rcases hm : p.service.method? h.name with _ | m
    · rcases hskip : Reading.skip readConfig .struct body with ⟨⟨⟩, rest⟩ | ⟨fault, rest⟩
      · have hserved : p.process readConfig config input output = _ :=
          process_unknown hunsent hread hm hskip (htexts _ (.unknownMethod hread hm hskip))
        exact .inr ⟨h, body, _, _, rfl, .inr rfl, congrArg Served.output hserved⟩
      · exact .inl (congrArg Served.output (process_unskipped hread hm hskip))
    · rcases hargs : Machine.decode p.document readConfig m.argsStruct body with
        ⟨args, rest⟩ | ⟨fault, rest⟩
      · rcases htwo : m.oneway with _ | _
        · obtain ⟨struct, hstruct⟩ := hresults m (List.mem_of_find?_eq_some hm) htwo
          rcases answer_cases hs config h hstruct (p.handler m.name args) with
            ⟨result, hc, hconforms, -, -⟩ | ⟨text, -, hno, -⟩
          · have hserved := process_replied hs hunsent hread hm htwo hargs hstruct hc hconforms
            exact .inr ⟨h, body, _, _, rfl, .inl rfl, congrArg Served.output hserved⟩
          · obtain ⟨text, -, hserved⟩ := process_refused hs hunsent hread hm htwo hargs hstruct hno
              fun text hfails => htexts _ (.outcome hread hm htwo hargs hfails)
            exact .inr ⟨h, body, _, _, rfl, .inr rfl, congrArg Served.output hserved⟩
        · exact .inl (congrArg Served.output (process_oneway hread hm htwo hargs))
      · have hserved : p.process readConfig config input output = _ := process_invalid hunsent
          hread hm hargs fun htwo => htexts _ (.arguments hread hm htwo hargs)
        rcases htwo : m.oneway with _ | _
        · rw [htwo] at hserved
          exact .inr ⟨h, body, _, _, rfl, .inr rfl, congrArg Served.output hserved⟩
        · rw [htwo] at hserved
          exact .inl (congrArg Served.output hserved)
  · exact .inl (congrArg Served.output (process_unparsed hread))

/-- A processor of a compiled service serves every message as it must, as long as the texts of
the exceptions that it sends are short. -/
theorem process_answers {d : Document} {c : Compiled} (hc : d.compile = .ok c) :
    ∃ s, d.schema = .ok s ∧ ∀ (name : String) (handler : Handler) (p : Processor)
      (readConfig config : WireConfig) (input : Bytes) (output : Link),
      Processor.ofService c name handler = .ok p → output.unsent = [] →
        (∀ e, p.Raises readConfig config input e → Text.Short e.message) →
          Answers s p readConfig config input output
            (p.process readConfig config input output) := by
  obtain ⟨s, hschema, hrealizes⟩ := Compiled.realizes_of_compile hc
  refine ⟨s, hschema, fun name handler p readConfig config input output hp hunsent htexts => ?_⟩
  obtain ⟨hs, hresults⟩ := results_of_ofService hc hschema hrealizes hp
  have hstruct : ∀ {name m}, p.service.method? name = some m → m.oneway = false →
      ∃ struct, m.resultStruct = some struct :=
    fun hm => hresults _ (List.mem_of_find?_eq_some hm)
  have houtput := process_output hs hresults hunsent htexts
  refine ⟨?_, ?_, ?_, ?_, ?_, ?_, ?_, ?_, ?_⟩
  · rcases houtput with heq | ⟨h, body, type, content, -, -, heq⟩
    · rw [heq, hunsent]
    · rw [heq]
      exact hunsent
  · rcases houtput with heq | ⟨h, body, type, content, hread, htype, heq⟩
    · exact .inl (by rw [heq])
    · exact .inr ⟨h, body, type, content, hread, htype, by rw [heq]; rfl⟩
  · exact fun _ _ => process_unparsed
  · exact fun _ _ _ _ => process_unskipped
  · exact fun h body rest hread hm hskip =>
      process_unknown hunsent hread hm hskip (htexts _ (.unknownMethod hread hm hskip))
  · exact fun h body m fault rest hread hm hargs => process_invalid hunsent hread hm hargs
      fun htwo => htexts _ (.arguments hread hm htwo hargs)
  · exact fun h body m args rest => process_oneway
  · exact fun h body m args rest hread hm htwo hargs struct result hstruct' =>
      process_replied hs hunsent hread hm htwo hargs hstruct'
  · intro h body m args rest hread hm htwo hargs hno
    obtain ⟨struct, hstruct'⟩ := hstruct hm htwo
    exact process_refused hs hunsent hread hm htwo hargs hstruct' (hno struct · hstruct')
      fun text hfails => htexts _ (.outcome hread hm htwo hargs hfails)

/-- A processor of the small document with a handler that always panics. -/
def ofLibrary : Processor :=
  ⟨Document.libraryCodecs, Document.libraryService, fun _ _ => .panicked (some "out of order")⟩

/-- A call of the method `find` without arguments. -/
def findCall : Bytes := [0x80, 1, 0, 1, 0, 0, 0, 4, 0x66, 0x69, 0x6e, 0x64, 0, 0, 0, 1, 0]

theorem read_findCall : MessageHeader.read {} findCall = .ok ⟨"find", .call, 1⟩ [0] := rfl

theorem process_answers_library : ∃ s, Document.library.schema = .ok s ∧
    Processor.ofService Document.libraryCodecs "Library" ofLibrary.handler = .ok ofLibrary ∧
    (∀ e, ofLibrary.Raises {} {} findCall e → Text.Short e.message) ∧
    Answers s ofLibrary {} {} findCall Link.empty
      (ofLibrary.process {} {} findCall Link.empty) := by
  obtain ⟨s, hs, h⟩ := process_answers Document.compile_library
  have hp : Processor.ofService Document.libraryCodecs "Library" ofLibrary.handler =
      .ok ofLibrary := rfl
  have htexts : ∀ e, ofLibrary.Raises {} {} findCall e → Text.Short e.message := by
    intro e he
    cases he with
    | unknownMethod hread hm hskip =>
      cases read_findCall.symm.trans hread
      cases hm
    | arguments hread hm htwo hargs =>
      cases read_findCall.symm.trans hread
      cases hm
      cases hargs
    | outcome hread hm htwo hargs hfails =>
      cases hfails with
      | panicked =>
        have hshort : Text.Short (panicText (some "out of order")) := by decide
        exact hshort
      | unencodable hstruct hresult hfault => cases hresult
  exact ⟨s, hs, hp, htexts, h _ _ _ _ _ _ _ hp rfl htexts⟩

end Processor

end Thrift
