-- Calls from end to end. A client makes calls, a processor serves them in the order in which they
-- were sent, and the answers come back in any order. Every call ends as its handler said.
import Thrift.Proofs.Correlation
import Thrift.Proofs.Results

namespace Thrift

open Reading (Reads)

/-! ## Both ends -/

/-- Serves so many messages, one after the other, and stops at one that is not served. -/
def Processor.serveAll (p : Processor) (readConfig config : WireConfig) :
    Nat → Bytes → Link → Served
  | 0, unread, output => ⟨.ok (), [], unread, output⟩
  | n + 1, unread, output =>
    let first := p.process readConfig config unread output
    match first.result with
    | .error _ => first
    | .ok _ =>
      let later := p.serveAll readConfig config n first.unread first.output
      { later with handled := first.handled ++ later.handled }

namespace Client

/-- Receives so many messages, one after the other. -/
def receiveAll (config : WireConfig) : Nat → Client → Reading Client
  | 0, c => return c
  | n + 1, c => do receiveAll config n (← c.receive config)

/-- A call that was accepted, with its arguments. -/
structure Request where
  ticket : Ticket
  args : StructValue

/-- The client accepts calls of two-way methods, one after the other. -/
inductive Accepts : Client → List Request → Client → Prop
  | nil (c : Client) : Accepts c [] c
  | cons {c next last : Client} {name : String} {m : Method} {id : Int32} {call : Nat}
      {args : StructValue} {requests : List Request} (hm : c.method name = .ok m)
      (htwo : m.oneway = false) (hcall : c.call name args = (.ok (id, call), next))
      (hrest : Accepts next requests last) :
      Accepts c (⟨⟨id, m, call⟩, args⟩ :: requests) last

namespace Request

def header (r : Request) : MessageHeader := ⟨r.ticket.method.name, .call, r.ticket.id⟩

/-- The message of a call. -/
def frame (s : Schema) (strict : Bool) (r : Request) : Bytes :=
  r.header.bytes strict ++ s.bytes r.ticket.method.argsStruct r.args

/-- The entry of a call in the table of those that wait. -/
def waits (r : Request) : Int32 × PendingCall := (r.ticket.id, ⟨r.ticket.method, r.ticket.call⟩)

/-- What the handler gets of a call: the method and the arguments in their normal form. -/
def handed (s : Schema) (r : Request) : String × StructValue :=
  (r.ticket.method.name, s.normal r.ticket.method.argsStruct r.args)

/-- What the handler does with a call. -/
def outcome (s : Schema) (handler : Handler) (r : Request) : HandlerOutcome :=
  handler (r.handed s).1 (r.handed s).2

/-- A call of a method of the service that could be sent. -/
structure Made (s : Schema) (c : Client) (r : Request) : Prop where
  method_eq : c.service.method? r.ticket.method.name = some r.ticket.method
  two_way : r.ticket.method.oneway = false
  name_short : Text.Short r.ticket.method.name
  args_conform : s.ConformsWithin c.config.maxDepth r.ticket.method.argsStruct r.args

end Request

/-! ## Calls go out -/

section

variable {s : Schema} {c next : Client} {m : Method} {args : StructValue}

/-- A method that is found is found under its own name. -/
theorem method?_of_method {name : String} (h : c.method name = .ok m) :
    c.service.method? m.name = some m := by
  unfold method at h
  split at h
  · rename_i found hfound
    cases h
    have hname := List.find?_some hfound
    rwa [beq_iff_eq.mp hname]
  · cases h

theorem message_eq (c : Client) (htwo : m.oneway = false) (args : StructValue) :
    c.message m args = MessageHeader.write c.config ⟨m.name, .call, c.sequenceId⟩ >>= fun _ =>
      Machine.encodeAs c.document c.config m.argsStruct args := by
  unfold message
  rw [htwo]
  rfl

/-- A message that was sent conformed, and is one frame under the next number. -/
theorem sendTo_sent (hs : c.document.RealizesSchema s) (hunsent : c.link.unsent = [])
    (htwo : m.oneway = false) {id : Int32} (h : c.sendTo m args = (.ok id, next)) :
    Text.Short m.name ∧ s.ConformsWithin c.config.maxDepth m.argsStruct args ∧
      id = c.sequenceId + 1 ∧ next = { c.advance 1 with
        link := c.link.sent (MessageHeader.bytes c.config.strictWrite ⟨m.name, .call, id⟩ ++
          s.bytes m.argsStruct args) } := by
  unfold sendTo at h
  rcases hvalid : Machine.validateAs c.document c.config.maxDepth m.argsStruct args with fault | _
  · rw [hvalid] at h
    cases h
  · have hconforms := (Machine.validateAs_eq_ok_iff hs).mp hvalid
    rw [hvalid] at h
    dsimp only at h
    rcases hsent : ((c.advance 1).message m args).outcome with fault | _
    · rw [Link.write, hsent] at h
      cases h
    · rw [message_eq _ htwo] at h hsent
      obtain ⟨hheader, hbody⟩ := Writing.succeeds_bind_iff.mp hsent
      have hshort := MessageHeader.write_succeeds_iff.mp hheader
      have hunsent' : (c.advance 1).link.unsent = [] := hunsent
      have hs' : (c.advance 1).document.RealizesSchema s := hs
      rw [Link.write_message hunsent' _ hshort hbody, Machine.encodeAs_bytes hs' hbody] at h
      dsimp only at h
      rw [Link.flush_message hunsent'] at h
      cases h
      exact ⟨hshort, hconforms, rfl, rfl⟩

/-- A call that is accepted was sent as one frame, under the next number and at the next place. -/
theorem call_sent (hs : c.document.RealizesSchema s) (hunsent : c.link.unsent = [])
    {name : String} {id : Int32} {call : Nat} (hm : c.method name = .ok m)
    (htwo : m.oneway = false) (hcall : c.call name args = (.ok (id, call), next)) :
    Request.Made s c ⟨⟨id, m, call⟩, args⟩ ∧ id = c.sequenceId + 1 ∧ call = c.calls.length ∧
      next = Client.await { c.advance 1 with
        link := c.link.sent (Request.frame s c.config.strictWrite ⟨⟨id, m, call⟩, args⟩)
        calls := c.calls ++ [.waiting] } id ⟨m, call⟩ := by
  have hservice := method?_of_method hm
  rw [Client.call, hm] at hcall
  dsimp only at hcall
  rcases hsend : c.sendTo m args with ⟨fault | id', next'⟩
  · rw [hsend] at hcall
    cases hcall
  · obtain ⟨hshort, hconforms, hid, hnext⟩ := sendTo_sent hs hunsent htwo hsend
    rw [hsend] at hcall
    dsimp only at hcall
    rw [htwo, if_neg Bool.false_ne_true, hnext] at hcall
    cases hcall
    exact ⟨⟨hservice, htwo, hshort, hconforms⟩, hid, rfl, rfl⟩

end

/-- What a client is like after it made calls: each is in a frame of its own and waits. -/
structure Sent (s : Schema) (n : Nat) (c : Client) (requests : List Request) (last : Client) :
    Prop where
  document_eq : last.document = c.document
  frames_eq : last.link.frames =
    c.link.frames ++ requests.map (Request.frame s c.config.strictWrite)
  pending_perm : last.pending.Perm (requests.map Request.waits ++ c.pending)
  sound : Sound (n + requests.length) last
  made : ∀ r ∈ requests, r.Made s c

theorem Accepts.sent {s : Schema} {n : Nat} {c last : Client} {requests : List Request}
    (h : Accepts c requests last) (hs : c.document.RealizesSchema s) (hsound : Sound n c)
    (hunsent : c.link.unsent = []) (hn : n + requests.length < idCount) :
    Sent s n c requests last := by
  induction h generalizing n with
  | nil c =>
    exact ⟨rfl, (List.append_nil _).symm, List.Perm.refl _, hsound,
      fun _ hr => absurd hr List.not_mem_nil⟩
  | @cons c next last name m id call args requests hm htwo hcall hrest ih =>
    rw [List.length_cons] at hn
    have hnext : n + 1 < idCount := by omega
    obtain ⟨hmade, rfl, rfl, heq⟩ := call_sent hs hunsent hm htwo hcall
    have hsound' : Sound (n + 1) next := by
      rw [heq]
      exact hsound.called _ m
    -- Nobody waits for the new number, so the call stands in front of those that waited before.
    rw [hsound.await_next hnext] at heq
    subst heq
    have hlater := ih hs hsound' hunsent (by omega)
    refine ⟨hlater.document_eq, ?_, ?_, ?_, ?_⟩
    · rw [hlater.frames_eq]
      exact List.append_assoc _ _ _
    · refine hlater.pending_perm.trans ?_
      exact List.perm_middle
    · have hlast := hlater.sound
      rwa [Nat.add_assoc, Nat.add_comm 1] at hlast
    · refine List.forall_mem_cons.mpr ⟨hmade, fun r hr => ?_⟩
      obtain ⟨hmethod, htwo', hname, hargs⟩ := hlater.made r hr
      exact ⟨hmethod, htwo', hname, hargs⟩

/-! ## Answers come in -/

/-- The frame answers the call with this outcome. -/
def Settles (d : Compiled) (config : WireConfig) (frame : Bytes) (t : Ticket)
    (outcome : CallOutcome) : Prop :=
  ∃ header body h, frame = header ++ body ∧ Reads (MessageHeader.read config) header h ∧
    h.sequenceId = t.id ∧ Reads (readBody d config t.method h) body outcome

/-- A frame that answers a call that waits settles it, and nothing behind the frame is taken. -/
theorem receive_reads {c : Client} {config : WireConfig} {frame : Bytes} {t : Ticket}
    {outcome : CallOutcome} (h : Settles c.document config frame t outcome)
    (hp : c.pending.lookup t.id = some ⟨t.method, t.call⟩) : Reads (c.receive config) frame
      ((c.removePending t.id).settleCall t.call outcome) := by
  obtain ⟨header, body, h, rfl, hheader, hid, hbody⟩ := h
  intro rest
  rw [← hid] at hp ⊢
  rw [List.append_assoc]
  exact receive_answer (hheader _) hp (hbody rest)

/-- Where every call that waits has a frame that answers it, the frames settle all calls, one
after the other. -/
theorem receiveAll_reads {R : Request → CallOutcome → Prop} {d : Compiled} {config : WireConfig}
    {frames : List Bytes} {requests : List Request}
    (h : List.Forall₂ (fun frame (r : Request) =>
      ∃ outcome, Settles d config frame r.ticket outcome ∧ R r outcome) frames requests)
    {n : Nat} {c : Client} (hd : c.document = d) (hsound : Sound n c)
    (hperm : c.pending.Perm (requests.map Request.waits)) :
    ∃ final : Client, Reads (receiveAll config frames.length c) frames.flatten final ∧
      final.pending = [] ∧
      (∀ (k : Nat) (outcome : CallOutcome), c.calls[k]? = some (.settled outcome) →
        final.calls[k]? = some (.settled outcome)) ∧
      ∀ r ∈ requests, ∃ outcome : CallOutcome,
        final.calls[r.ticket.call]? = some (.settled outcome) ∧ R r outcome := by
  -- Those that wait are always the calls of the frames that are left.
  induction h generalizing n c with
  | nil =>
    have hread : Reads (receiveAll config 0 c) [] c := Reads.pure c
    exact ⟨c, hread, hperm.eq_nil, fun _ _ hk => hk, fun _ hr => absurd hr List.not_mem_nil⟩
  | @cons frame r frames requests hframe _ ih =>
    obtain ⟨outcome, hsettles, hr⟩ := hframe
    have hmem : r.waits ∈ c.pending := hperm.mem_iff.mpr List.mem_cons_self
    have hp := hsound.lookup_of_mem hmem
    have hread := receive_reads (hd ▸ hsettles) hp
    have hsettled := hsound.settle hp outcome
    have hd' : ((c.removePending r.ticket.id).settleCall r.ticket.call outcome).document = d := hd
    obtain ⟨final, hfinal, hempty, hkept, hall⟩ := ih hd' hsettled (hsound.filter_perm hperm)
    refine ⟨final, hread.bind hfinal, hempty, ?_, ?_⟩
    · exact fun k other hk => hkept k other (settleCall_settled hk _ _)
    · refine List.forall_mem_cons.mpr ⟨⟨outcome, ?_, hr⟩, hall⟩
      exact hkept _ _ (settleCall_waiting (hsound.waiting _ hmem) outcome)

end Client

/-! ## Calls are served -/

open Client (Request Settles)

/-- The settings of both ends: a client writes calls and a processor reads them, the processor
writes answers and the client reads them. -/
structure Settings where
  writing : WireConfig := {}
  reading : WireConfig := {}
  sending : WireConfig := {}
  receiving : WireConfig := {}

/-- Whoever reads lets structs be nested as deep as the one who writes, and asks for a version
word only of one who writes it. -/
structure Settings.Compatible (l : Settings) : Prop where
  reading_depth : l.writing.maxDepth ≤ l.reading.maxDepth
  reading_strict : l.reading.strictRead = true → l.writing.strictWrite = true
  receiving_depth : l.sending.maxDepth ≤ l.receiving.maxDepth
  receiving_strict : l.receiving.strictRead = true → l.sending.strictWrite = true

/-- No text and no container of a call or of its answer is larger than the one who reads it
allows, and what failed can be told. -/
structure Client.Request.Within (s : Schema) (p : Processor) (l : Settings) (r : Request) :
    Prop where
  name_reading : (Text.toBytes r.ticket.method.name).length ≤ l.reading.maxStringSize
  name_receiving : (Text.toBytes r.ticket.method.name).length ≤ l.receiving.maxStringSize
  args : r.args.toValue.Within l.reading
  result : ∀ struct result,
    Processor.Carries r.ticket.method struct (r.outcome s p.handler) result →
      result.toValue.Within l.receiving
  text : ∀ text, p.Fails l.sending r.ticket.method (r.outcome s p.handler) text →
    Text.Short text ∧ (Text.toBytes text).length ≤ l.receiving.maxStringSize

section

variable {s : Schema} {t : SymbolTable} {p : Processor} {l : Settings} {c : Client} {r : Request}
  {struct : String} {form : Form}

/-- The message of a call is read as its header and the normal form of its arguments. -/
theorem Client.Request.Made.reads (hmade : r.Made s c) (hc : c.config = l.writing)
    (hback : p.document.ReadsBack s) (hl : l.Compatible) (hwithin : r.Within s p l) :
    Reads (MessageHeader.read l.reading) (r.header.bytes l.writing.strictWrite) r.header ∧
      Reads (Machine.decode p.document l.reading r.ticket.method.argsStruct)
        (s.bytes r.ticket.method.argsStruct r.args) (r.handed s).2 := by
  have hconforms := hmade.args_conform
  rw [hc] at hconforms
  constructor
  · exact MessageHeader.read_reads hmade.name_short hwithin.name_reading hl.reading_strict
  · exact hback l.reading _ _ r.args hl.reading_depth hconforms hwithin.args

/-- An answer with a body that is read as an outcome settles the call with it. -/
theorem Client.Request.Made.settles (hmade : r.Made s c) (hl : l.Compatible)
    (hwithin : r.Within s p l) {d : Compiled} {type : MessageType} {body : Bytes}
    {outcome : CallOutcome} (hbody : Reads (Client.readBody d l.receiving r.ticket.method
      { r.header with type }) body outcome) :
    Settles d l.receiving (r.header.answer l.sending.strictWrite type body) r.ticket outcome := by
  have hheader : Reads (MessageHeader.read l.receiving)
      (MessageHeader.bytes l.sending.strictWrite { r.header with type }) { r.header with type } :=
    MessageHeader.read_reads hmade.name_short hwithin.name_receiving hl.receiving_strict
  exact ⟨_, body, _, rfl, hheader, rfl, hbody⟩

namespace Processor

/-- The frame settles the call as the handler said. -/
def Answered (s : Schema) (t : SymbolTable) (p : Processor) (l : Settings) (frame : Bytes)
    (r : Request) : Prop :=
  ∃ outcome, Settles p.document l.receiving frame r.ticket outcome ∧
    Resolves s t (l.sending.maxDepth - 1) r.ticket.method (r.outcome s p.handler) outcome

/-- A call is handed to the handler, and its answer is one frame that settles it. -/
theorem process_request (hs : p.document.RealizesSchema s) (hback : p.document.ReadsBack s)
    (hc : c.config = l.writing) (hservice : c.service = p.service) (hl : l.Compatible)
    (hdepth : 0 < l.sending.maxDepth) (hmade : r.Made s c) (hwithin : r.Within s p l)
    (hresult : r.ticket.method.HasResult s t struct form) {output : Link}
    (hunsent : output.unsent = []) (rest : Bytes) :
    ∃ frame, p.process l.reading l.sending (r.frame s l.writing.strictWrite ++ rest) output =
      ⟨.ok (), [r.handed s], rest, output.sent frame⟩ ∧ Answered s t p l frame r := by
  obtain ⟨levels, hlevels⟩ := Nat.exists_eq_add_one_of_ne_zero (Nat.ne_of_gt hdepth)
  obtain ⟨hheader, hargs⟩ := hmade.reads hc hback hl hwithin
  have hm : p.service.method? r.header.name = some r.ticket.method := hservice ▸ hmade.method_eq
  have htwo := hmade.two_way
  rw [Request.frame, List.append_assoc]
  replace hheader := hheader (s.bytes r.ticket.method.argsStruct r.args ++ rest)
  replace hargs := hargs rest
  unfold Answered
  rw [hlevels, Nat.add_sub_cancel]
  by_cases hcarried : ∃ result, Carries r.ticket.method struct (r.outcome s p.handler) result ∧
      s.ConformsWithin (levels + 1) struct result
  · obtain ⟨result, hcarries, hconforms⟩ := hcarried
    have hconforms' : s.ConformsWithin l.sending.maxDepth struct result := hlevels ▸ hconforms
    refine ⟨_, process_replied hs hunsent hheader hm htwo hargs hresult.struct_eq hcarries
      hconforms', _, hmade.settles hl hwithin ?_, hresult.resolves hcarries hconforms⟩
    exact hresult.reply_reads hback rfl rfl hl.receiving_depth hconforms'
      (hwithin.result struct result hcarries)
  · have hno : ∀ result, Carries r.ticket.method struct (r.outcome s p.handler) result →
        ¬ s.ConformsWithin (levels + 1) struct result :=
      fun result hcarries hconforms => hcarried ⟨result, hcarries, hconforms⟩
    obtain ⟨text, hfails, hprocess⟩ := process_refused hs hunsent hheader hm htwo hargs
      hresult.struct_eq (hlevels ▸ hno) fun text hfails => (hwithin.text text hfails).1
    obtain ⟨hshort, hlimit⟩ := hwithin.text text hfails
    refine ⟨_, hprocess, _, hmade.settles hl hwithin ?_, hresult.resolves_refused hfails hno⟩
    exact Client.readBody_reads_exception rfl hshort hlimit

/-- The calls of a client are all served, one after the other, each with one frame. -/
theorem serveAll_requests {requests : List Request} (hs : p.document.RealizesSchema s)
    (hback : p.document.ReadsBack s) (hc : c.config = l.writing) (hservice : c.service = p.service)
    (hl : l.Compatible) (hdepth : 0 < l.sending.maxDepth) (hmade : ∀ r ∈ requests, r.Made s c)
    (hwithin : ∀ r ∈ requests, r.Within s p l)
    (hresult : ∀ r ∈ requests, ∃ struct form, r.ticket.method.HasResult s t struct form)
    (output : Link) (hunsent : output.unsent = []) :
    ∃ frames, p.serveAll l.reading l.sending requests.length
        (requests.map (Request.frame s l.writing.strictWrite)).flatten output =
          ⟨.ok (), requests.map (Request.handed s), [],
            { output with frames := output.frames ++ frames }⟩ ∧
      List.Forall₂ (Answered s t p l) frames requests := by
  induction requests generalizing output with
  | nil =>
    refine ⟨[], ?_, .nil⟩
    rw [List.append_nil]
    rfl
  | cons r requests ih =>
    obtain ⟨hmade, hmade'⟩ := List.forall_mem_cons.mp hmade
    obtain ⟨hwithin, hwithin'⟩ := List.forall_mem_cons.mp hwithin
    obtain ⟨⟨struct, form, hresult⟩, hresult'⟩ := List.forall_mem_cons.mp hresult
    obtain ⟨frame, hprocess, hframe⟩ := process_request hs hback hc hservice hl hdepth hmade hwithin
      hresult hunsent (requests.map (Request.frame s l.writing.strictWrite)).flatten
    obtain ⟨frames, hlater, hframes⟩ := ih hmade' hwithin' hresult' (output.sent frame) hunsent
    refine ⟨frame :: frames, ?_, .cons hframe hframes⟩
    rw [List.map_cons, List.flatten_cons, List.length_cons, serveAll, hprocess]
    dsimp only
    rw [hlater, Link.sent, List.append_assoc]
    rfl

end Processor

end

/-! ## From end to end -/

/-- The frames settle all calls, each as the handler said, and nothing is left over. -/
def Client.SettledBy (s : Schema) (t : SymbolTable) (p : Processor) (l : Settings)
    (c : Client) (requests : List Request) (frames : List Bytes) : Prop :=
  ∃ final : Client, receiveAll l.receiving frames.length c frames.flatten = .ok final [] ∧
    final.pending = [] ∧ ∀ r ∈ requests, ∃ outcome : CallOutcome,
      final.calls[r.ticket.call]? = some (.settled outcome) ∧
        Resolves s t (l.sending.maxDepth - 1) r.ticket.method (r.outcome s p.handler) outcome

/-- Answers to all calls settle them in every order. -/
theorem Client.Sent.settledBy {s : Schema} {t : SymbolTable} {p : Processor} {l : Settings}
    {n : Nat} {c last : Client} {requests : List Request} (h : Sent s n c requests last)
    (hpending : c.pending = []) (hd : c.document = p.document) {frames order : List Bytes}
    (hframes : List.Forall₂ (Processor.Answered s t p l) frames requests)
    (horder : order.Perm frames) : last.SettledBy s t p l requests order := by
  obtain ⟨requests', hrequests', hperm⟩ := List.perm_comp_forall₂ horder hframes
  have hwaits : last.pending.Perm (requests'.map Request.waits) := by
    refine h.pending_perm.trans ?_
    rw [hpending, List.append_nil]
    exact hperm.symm.map _
  obtain ⟨final, hfinal, hempty, -, hall⟩ :=
    receiveAll_reads hrequests' (h.document_eq.trans hd) h.sound hwaits
  have hread := hfinal []
  rw [List.append_nil] at hread
  exact ⟨final, hread, hempty, fun r hmem => hall r (hperm.mem_iff.mpr hmem)⟩

/-- A handler gets the calls of a client in their normal form, each once and in order. The answers
settle the calls as the handler said, in whatever order they come. -/
theorem Document.calls_resolved {d : Document} {c : Compiled} (hc : d.compile = .ok c)
    (hd : d.NamesDistinct) (hu : d.UnionsSent) (hr : d.ReturnsPlain) :
    ∃ t s, SymbolTable.ofDocument d = .ok t ∧ d.schema = .ok s ∧
      ∀ (name : String) (handler : Handler) (l : Settings) (client last : Client) (p : Processor)
        (requests : List Request), Client.ofService c name l.writing = .ok client →
          Processor.ofService c name handler = .ok p → l.Compatible → 0 < l.sending.maxDepth →
            client.Accepts requests last → requests.length < idCount →
              (∀ r ∈ requests, r.Within s p l) →
                ∃ frames, p.serveAll l.reading l.sending requests.length last.link.frames.flatten
                    Link.empty = ⟨.ok (), requests.map (Request.handed s), [], ⟨[], [], frames⟩⟩ ∧
                  frames.length = requests.length ∧
                  ∀ order, order.Perm frames → last.SettledBy s t p l requests order := by
  obtain ⟨t, ht, hdeclared⟩ := Document.declares_of_compile hc
  obtain ⟨s, hs, hrealizes⟩ := Compiled.realizes_of_compile hc
  have hback := Document.readsBack_of_compile hs hrealizes hd hu
  refine ⟨t, s, ht, hs, ?_⟩
  intro name handler l client last p requests hclient hp hl hdepth haccepts hcount hwithin
  have hsound := (Client.Fresh.ofService hclient).sound
  obtain ⟨service, hservice, rfl⟩ := Client.ofService_eq_ok hclient
  obtain ⟨service', hservice', rfl⟩ := Processor.ofService_eq_ok hp
  cases hservice.symm.trans hservice'
  have hsent := haccepts.sent hrealizes hsound rfl (by omega)
  have hresult : ∀ r ∈ requests, ∃ struct form, r.ticket.method.HasResult s t struct form := by
    intro r hmem
    have hmade := hsent.made r hmem
    have hm := hdeclared service (List.mem_of_find?_eq_some hservice) r.ticket.method
      (List.mem_of_find?_eq_some hmade.method_eq)
    exact hm.hasResult hc ht hs hrealizes hd hr hmade.two_way
  obtain ⟨frames, hserved, hframes⟩ := Processor.serveAll_requests hrealizes hback rfl rfl hl
    hdepth hsent.made hwithin hresult Link.empty rfl
  have hlink : last.link.frames = requests.map (Request.frame s l.writing.strictWrite) :=
    hsent.frames_eq
  rw [hlink]
  exact ⟨frames, hserved, hframes.length_eq, fun _ => hsent.settledBy rfl rfl hframes⟩

/-! ## The small document -/

namespace Document

theorem library_namesDistinct : library.NamesDistinct := by
  unfold NamesDistinct
  decide

theorem library_unionsSent : library.UnionsSent := by
  have hkinds : ∀ carrier ∈ library.carriers, carrier.1 ≠ .union := by decide
  intro t _ carrier hcarrier hkind
  exact absurd hkind (hkinds carrier hcarrier)

theorem library_returnsPlain : library.ReturnsPlain := by
  intro t ht service hservice f hf
  cases ht
  cases List.mem_singleton.mp hservice
  rcases List.mem_cons.mp hf with rfl | hf
  · right
    intro hform
    cases hform
  · rcases List.mem_pair.mp hf with rfl | rfl
    · exact .inl rfl
    · exact .inl rfl

/-- A handler that has every book that is asked for. -/
def libraryHandler : Handler := fun name args =>
  match args.get? "like" with
  | some book => if name = "find" then .returned book else .returned .void
  | none => .returned .void

def emma : StructValue := ⟨"Book", [("title", .string "Emma")]⟩

def libraryProcessor : Processor := ⟨libraryCodecs, libraryService, libraryHandler⟩

/-- A call that asks for a book. -/
def findRequest : Client.Request := ⟨⟨1, findMethod, 0⟩, ⟨"", [("like", emma.toValue)]⟩⟩

/-- A call that wants nothing in return. -/
def closeRequest (id : Int32) (call : Nat) : Client.Request := ⟨⟨id, closeMethod, call⟩, .empty ""⟩

theorem findRequest_within : findRequest.Within librarySchema libraryProcessor {} := by
  have hemma : emma.toValue.Within {} := by
    simp only [emma, StructValue.toValue, Value.Within, Value.FieldsWithin]
    decide
  have houtcome : findRequest.outcome librarySchema libraryHandler = .returned emma.toValue := rfl
  refine ⟨by decide, by decide, ⟨hemma, trivial⟩, fun struct result hcarries => ?_,
    fun text hfails => ?_⟩
  · change Processor.Carries findMethod struct
      (findRequest.outcome librarySchema libraryHandler) result at hcarries
    rw [houtcome] at hcarries
    cases hcarries
    exact ⟨hemma, trivial⟩
  · change libraryProcessor.Fails {} findMethod
      (findRequest.outcome librarySchema libraryHandler) text at hfails
    rw [houtcome] at hfails
    cases hfails with
    | unencodable hstruct hresult hfault =>
      cases hresult
      cases hstruct
      cases hfault

theorem closeRequest_within (id : Int32) (call : Nat) {sending : WireConfig}
    (htext : ∀ fault, Machine.validateAs libraryCodecs sending.maxDepth "LibraryCloseResult"
      ⟨"LibraryCloseResult", []⟩ = .error fault → Text.Short fault.message ∧
        (Text.toBytes fault.message).length ≤ ({} : WireConfig).maxStringSize) :
    (closeRequest id call).Within librarySchema libraryProcessor { sending } := by
  have hname : (Text.toBytes "close").length ≤ ({} : WireConfig).maxStringSize := by decide
  have houtcome : (closeRequest id call).outcome librarySchema libraryHandler =
    .returned .void := rfl
  refine ⟨hname, hname, trivial, fun struct result hcarries => ?_, fun text hfails => ?_⟩
  · change Processor.Carries closeMethod struct
      ((closeRequest id call).outcome librarySchema libraryHandler) result at hcarries
    rw [houtcome] at hcarries
    cases hcarries with
    | nothing => trivial
    | value hv => cases hv
  · change libraryProcessor.Fails sending closeMethod
      ((closeRequest id call).outcome librarySchema libraryHandler) text at hfails
    rw [houtcome] at hfails
    cases hfails with
    | unencodable hstruct hresult hfault =>
      cases hstruct
      cases hresult with
      | nothing => exact htext _ hfault
      | value hv => cases hv

theorem calls_resolved_library : ∃ t last, SymbolTable.ofDocument library = .ok t ∧
    library.NamesDistinct ∧ library.UnionsSent ∧ library.ReturnsPlain ∧
    Client.ofService libraryCodecs "Library" {} = .ok Client.ofLibrary ∧
    Client.ofLibrary.Accepts [findRequest, closeRequest 2 1] last ∧
    (∀ r ∈ [findRequest, closeRequest 2 1],
      r.Within librarySchema libraryProcessor {}) ∧
    ∃ frames, libraryProcessor.serveAll {} {} 2 last.link.frames.flatten Link.empty =
        ⟨.ok (), [findRequest.handed librarySchema, (closeRequest 2 1).handed librarySchema], [],
          ⟨[], [], frames⟩⟩ ∧
      last.SettledBy librarySchema t libraryProcessor {}
        [findRequest, closeRequest 2 1] frames.reverse := by
  obtain ⟨t, s, ht, hs, h⟩ := calls_resolved compile_library library_namesDistinct
    library_unionsSent library_returnsPlain
  cases schema_library.symm.trans hs
  have hclient : Client.ofService libraryCodecs "Library" {} = .ok Client.ofLibrary := rfl
  have hp : Processor.ofService libraryCodecs "Library" libraryHandler = .ok libraryProcessor := rfl
  have hl : Settings.Compatible {} :=
    ⟨Nat.le_refl _, fun _ => rfl, Nat.le_refl _, fun _ => rfl⟩
  have hwithin : ∀ r ∈ [findRequest, closeRequest 2 1],
      r.Within librarySchema libraryProcessor {} := by
    refine List.forall_mem_cons.mpr ⟨findRequest_within, List.forall_mem_singleton.mpr ?_⟩
    refine closeRequest_within 2 1 fun fault hfault => ?_
    cases hfault
  have haccepts : ∃ last, Client.ofLibrary.Accepts [findRequest, closeRequest 2 1] last :=
    ⟨_, .cons (show Client.ofLibrary.method "find" = .ok findMethod from rfl) rfl rfl
      (.cons (show Client.method _ "close" = .ok closeMethod from rfl) rfl rfl (.nil _))⟩
  obtain ⟨last, haccepts⟩ := haccepts
  obtain ⟨frames, hserved, -, hsettled⟩ := h "Library" libraryHandler {} Client.ofLibrary last
    libraryProcessor _ hclient hp hl (by decide) haccepts (by decide) hwithin
  exact ⟨t, last, ht, library_namesDistinct, library_unionsSent, library_returnsPlain, hclient,
    haccepts, hwithin, frames, hserved, hsettled _ frames.reverse_perm⟩

/-- Where no struct at all may be sent, a method without a value cannot answer either: its result
struct is refused, and the one who called is told of a failure. -/
theorem void_refused : ∃ last frame final text,
    library.NamesDistinct ∧ library.UnionsSent ∧ library.ReturnsPlain ∧
    Settings.Compatible { sending := { maxDepth := 0 } } ∧
    Client.ofService libraryCodecs "Library" {} = .ok Client.ofLibrary ∧
    Processor.ofService libraryCodecs "Library" libraryHandler = .ok libraryProcessor ∧
    Client.ofLibrary.Accepts [closeRequest 1 0] last ∧
    (closeRequest 1 0).Within librarySchema libraryProcessor { sending := { maxDepth := 0 } } ∧
    closeMethod.returnsVoid = true ∧
    (closeRequest 1 0).outcome librarySchema libraryHandler = .returned .void ∧
    libraryProcessor.serveAll {} { maxDepth := 0 } 1 last.link.frames.flatten Link.empty =
      ⟨.ok (), [(closeRequest 1 0).handed librarySchema], [], ⟨[], [], [frame]⟩⟩ ∧
    Client.receiveAll {} 1 last frame = .ok final [] ∧
    final.calls = [.settled (.error (.application (.unknown text)))] := by
  refine ⟨_, _, _, _, library_namesDistinct, library_unionsSent, library_returnsPlain,
    ⟨Nat.le_refl _, fun _ => rfl, Nat.zero_le _, fun _ => rfl⟩, rfl, rfl,
    .cons (show Client.ofLibrary.method "close" = .ok closeMethod from rfl) rfl rfl (.nil _), ?_,
    rfl, rfl, rfl, rfl, rfl⟩
  refine closeRequest_within 1 0 fun fault hfault => ?_
  cases hfault
  decide

end Document

end Thrift
