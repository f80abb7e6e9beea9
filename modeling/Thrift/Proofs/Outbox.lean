-- What a client sends. A call that is refused leaves nothing behind, neither a number nor a byte,
-- and one that is accepted becomes one whole frame. Messages that come in send nothing.
import Thrift.Proofs.Answers
import Thrift.Proofs.Correlation

namespace Thrift

namespace Client

/-! ## Messages that go out -/

/-- A message that was accepted: its number, its method and its arguments. -/
structure Outgoing where
  id : Int32
  method : Method
  args : StructValue

namespace Outgoing

def header (o : Outgoing) : MessageHeader :=
  ⟨o.method.name, if o.method.oneway then .oneway else .call, o.id⟩

/-- The encoding of the arguments. -/
def body (d : Compiled) (config : WireConfig) (o : Outgoing) : Writing Unit :=
  Machine.encodeAs d config o.method.argsStruct o.args

def frame (d : Compiled) (config : WireConfig) (o : Outgoing) : Bytes :=
  o.header.bytes config.strictWrite ++ (o.body d config).bytes

end Outgoing

/-- The message that an action sends, if it is a call or a sending that is accepted. -/
def outgoing? (c : Client) : Action → Option Outgoing
  | .call name args =>
    match c.method name, (c.call name args).1 with
    | .ok m, .ok (id, _) => some ⟨id, m, args⟩
    | _, _ => none
  | .send name args =>
    match c.method name, (c.send name args).1 with
    | .ok m, .ok id => some ⟨id, m, args⟩
    | _, _ => none
  | .newSequenceId => none
  | .receive .. => none

/-- The messages of a run, in order. -/
def outbox (c : Client) : List Action → List Outgoing
  | [] => []
  | a :: later => (c.outgoing? a).toList ++ (c.step a).outbox later

/-- The service has no method whose name is too long for a message. -/
def NamesShort (c : Client) : Prop := ∀ m ∈ c.service.methods, Text.Short m.name

/-- The client knows the method, and the arguments can be encoded as its parameters. -/
def Accepted (c : Client) (name : String) (args : StructValue) : Prop :=
  ∃ m, c.method name = .ok m ∧
    (Machine.encodeAs c.document c.config m.argsStruct args).outcome = .ok ()

variable {c next last : Client}

/-! ## One message -/

/-- Arguments are tried with the same limit that they are sent with, so what passes is sent as a
whole and what does not is refused before anything is written. -/
theorem sendTo_eq {m : Method} (hunsent : c.link.unsent = []) (hname : Text.Short m.name)
    (args : StructValue) : c.sendTo m args =
      match (Machine.encodeAs c.document c.config m.argsStruct args).outcome with
      | .error fault => (.error fault, c)
      | .ok _ => (.ok (c.sequenceId + 1), { c.advance 1 with
          link := c.link.sent
            (Outgoing.frame c.document c.config ⟨c.sequenceId + 1, m, args⟩) }) := by
  have htried : Machine.validateAs c.document c.config.maxDepth m.argsStruct args =
      (Machine.encodeAs c.document c.config m.argsStruct args).outcome := rfl
  unfold sendTo
  rw [htried]
  rcases hbody : (Machine.encodeAs c.document c.config m.argsStruct args).outcome with fault | ⟨⟩
  · rfl
  · have hwrite := Link.write_message (l := c.link) hunsent c.config
      (h := Outgoing.header ⟨c.sequenceId + 1, m, args⟩) hname hbody
    have hmessage : (c.advance 1).link.write ((c.advance 1).message m args) = _ := hwrite
    simp only [hmessage]
    rw [Link.flush_message hunsent]
    rfl

/-- What one action leaves alone, and what it adds to the frames. -/
structure Posts (c next : Client) (sent : List Outgoing) : Prop where
  document_eq : next.document = c.document
  service_eq : next.service = c.service
  config_eq : next.config = c.config
  frames_eq : next.link.frames =
    c.link.frames ++ sent.map (Outgoing.frame c.document c.config)
  unsent_eq : next.link.unsent = []
  encoded : ∀ o ∈ sent, (o.body c.document c.config).outcome = .ok ()

namespace Posts

theorem of_link_eq (hunsent : c.link.unsent = []) (hd : next.document = c.document)
    (hs : next.service = c.service) (hc : next.config = c.config) (hl : next.link = c.link) :
    Posts c next [] := by
  refine ⟨hd, hs, hc, ?_, ?_, fun o ho => absurd ho List.not_mem_nil⟩
  · simp [hl]
  · rw [hl, hunsent]

theorem refl (hunsent : c.link.unsent = []) : Posts c c [] := of_link_eq hunsent rfl rfl rfl rfl

theorem trans {sent later : List Outgoing} (h : Posts c next sent)
    (h' : Posts next last later) : Posts c last (sent ++ later) := by
  have hd := h.document_eq
  have hc := h.config_eq
  refine ⟨h'.document_eq.trans hd, h'.service_eq.trans h.service_eq, h'.config_eq.trans hc,
    ?_, h'.unsent_eq, ?_⟩
  · rw [h'.frames_eq, h.frames_eq, hd, hc, List.map_append, List.append_assoc]
  · intro o ho
    rcases List.mem_append.mp ho with ho | ho
    · exact h.encoded o ho
    · have hbody := h'.encoded o ho
      rwa [hd, hc] at hbody

/-- A client that differs from the next one only in its calls has sent the same. -/
theorem of_calls {sent : List Outgoing} (h : Posts c next sent)
    (pending : List (Int32 × PendingCall)) (calls : List CallState) :
    Posts c { next with pending, calls } sent :=
  ⟨h.document_eq, h.service_eq, h.config_eq, h.frames_eq, h.unsent_eq, h.encoded⟩

theorem names_short {sent : List Outgoing} (h : Posts c next sent) (hn : c.NamesShort) :
    next.NamesShort := by
  intro m hm
  rw [h.service_eq] at hm
  exact hn m hm

end Posts

/-- Sending refuses and changes nothing, or sends one frame under the next number. -/
theorem sendTo_posts {m : Method} (hunsent : c.link.unsent = []) (hname : Text.Short m.name)
    (args : StructValue) :
    (∃ fault, (Machine.encodeAs c.document c.config m.argsStruct args).outcome = .error fault ∧
      c.sendTo m args = (.error fault, c)) ∨
    ∃ id next, (Machine.encodeAs c.document c.config m.argsStruct args).outcome = .ok () ∧
      c.sendTo m args = (.ok id, next) ∧ Posts c next [⟨id, m, args⟩] := by
  rw [sendTo_eq hunsent hname]
  rcases hbody : (Machine.encodeAs c.document c.config m.argsStruct args).outcome with fault | ⟨⟩
  · exact .inl ⟨fault, rfl, rfl⟩
  · refine .inr ⟨_, _, rfl, rfl, rfl, rfl, rfl, rfl, hunsent, fun o ho => ?_⟩
    cases List.mem_singleton.mp ho
    exact hbody

theorem not_accepted_of_error {name : String} {fault : Fault}
    (hm : c.method name = .error fault) (args : StructValue) : ¬ c.Accepted name args := by
  rintro ⟨m, hm', -⟩
  rw [hm] at hm'
  cases hm'

theorem accepted_iff_of_method {name : String} {m : Method} (hm : c.method name = .ok m)
    {args : StructValue} : c.Accepted name args ↔
      (Machine.encodeAs c.document c.config m.argsStruct args).outcome = .ok () := by
  constructor
  · rintro ⟨m', hm', hbody⟩
    cases hm.symm.trans hm'
    exact hbody
  · intro hbody
    exact ⟨m, hm, hbody⟩

/-- What sending to a method by its name comes to. -/
theorem send_cases (hunsent : c.link.unsent = []) (hn : c.NamesShort) (name : String)
    (args : StructValue) :
    (∃ fault, ¬ c.Accepted name args ∧ c.send name args = (.error fault, c)) ∨
    ∃ m id next, c.method name = .ok m ∧ c.Accepted name args ∧
      c.send name args = (.ok id, next) ∧ Posts c next [⟨id, m, args⟩] := by
  unfold send
  rcases hm : c.method name with fault | m
  · exact .inl ⟨fault, not_accepted_of_error hm args, rfl⟩
  · rw [accepted_iff_of_method hm]
    rcases sendTo_posts hunsent (hn m (mem_of_method hm)) args with
      ⟨fault, hbody, hsend⟩ | ⟨id, next, hbody, hsend, hposts⟩
    · exact .inl ⟨fault, by simp [hbody], hsend⟩
    · exact .inr ⟨m, id, next, rfl, hbody, hsend, hposts⟩

theorem await_eq (c : Client) (id : Int32) (p : PendingCall) :
    ∃ pending calls, c.await id p = { c with pending, calls } := by
  unfold await
  split
  · exact ⟨_, _, rfl⟩
  · exact ⟨_, _, rfl⟩

theorem call_cases (hunsent : c.link.unsent = []) (hn : c.NamesShort) (name : String)
    (args : StructValue) :
    (∃ fault, ¬ c.Accepted name args ∧ c.call name args = (.error fault, c)) ∨
    ∃ m id call next, c.method name = .ok m ∧ c.Accepted name args ∧
      c.call name args = (.ok (id, call), next) ∧ Posts c next [⟨id, m, args⟩] := by
  rcases hm : c.method name with fault | m
  · exact .inl ⟨fault, not_accepted_of_error hm args, call_of_error hm args⟩
  · rw [accepted_iff_of_method hm, call_of_method hm]
    rcases sendTo_posts hunsent (hn m (mem_of_method hm)) args with
      ⟨fault, hbody, hsend⟩ | ⟨id, next, hbody, hsend, hposts⟩
    · rw [hsend]
      exact .inl ⟨fault, by simp [hbody], rfl⟩
    · rw [hsend]
      refine .inr ⟨m, id, next.calls.length, ?_⟩
      dsimp only
      by_cases honeway : m.oneway = true
      · rw [if_pos honeway]
        exact ⟨_, rfl, hbody, rfl, hposts.of_calls _ _⟩
      · rw [if_neg honeway]
        obtain ⟨pending, calls, hawait⟩ := await_eq
          { next with calls := next.calls ++ [.waiting] } id ⟨m, next.calls.length⟩
        rw [hawait]
        exact ⟨_, rfl, hbody, rfl, hposts.of_calls _ _⟩

/-! ## One step -/

theorem receive_posts (hunsent : c.link.unsent = []) (config : WireConfig) (input : Bytes) :
    Posts c (c.step (.receive config input)) [] := by
  have hmoves := c.receive_moves config input
  generalize c.step (.receive config input) = next at hmoves
  cases hmoves with
  | dropped => exact .refl hunsent
  | settled hread hp => exact .of_link_eq hunsent rfl rfl rfl rfl
  | _ =>
    rename_i hsent
    cases hsent

/-- A step adds the frame of the message that it sends, if it sends one. -/
theorem step_posts (hunsent : c.link.unsent = []) (hn : c.NamesShort) (a : Action) :
    Posts c (c.step a) (c.outgoing? a).toList := by
  cases a with
  | call name args =>
    rw [step, outgoing?]
    rcases call_cases hunsent hn name args with
      ⟨fault, -, hcall⟩ | ⟨m, id, call, next, hm, -, hcall, hposts⟩
    · rw [hcall]
      rcases c.method name with _ | _ <;> exact .refl hunsent
    · rw [hm, hcall]
      exact hposts
  | send name args =>
    rw [step, outgoing?]
    rcases send_cases hunsent hn name args with
      ⟨fault, -, hsend⟩ | ⟨m, id, next, hm, -, hsend, hposts⟩
    · rw [hsend]
      rcases c.method name with _ | _ <;> exact .refl hunsent
    · rw [hm, hsend]
      exact hposts
  | newSequenceId => exact .of_link_eq hunsent rfl rfl rfl rfl
  | receive config input => exact receive_posts hunsent config input

/-! ## Runs -/

/-- A run adds the frames of its messages, in order. -/
theorem run_posts (hunsent : c.link.unsent = []) (hn : c.NamesShort) (actions : List Action) :
    Posts c (c.run actions) (c.outbox actions) := by
  induction actions generalizing c with
  | nil => exact .refl hunsent
  | cons a later ih =>
    have hstep := step_posts hunsent hn a
    exact hstep.trans (ih hstep.unsent_eq (hstep.names_short hn))

/-- What is true of the frames of a client after a run, and of what it sends next. -/
structure Delivers (c : Client) (actions : List Action) : Prop where
  /-- One frame for each message that was accepted, and nothing half written. -/
  frames_eq : (c.run actions).link.frames =
    (c.outbox actions).map (Outgoing.frame c.document c.config)
  unsent_eq : (c.run actions).link.unsent = []
  encoded : ∀ o ∈ c.outbox actions, (o.body c.document c.config).outcome = .ok ()
  /-- What fails leaves no trace. -/
  call_refused : ∀ name args fault, ((c.run actions).call name args).1 = .error fault →
    ((c.run actions).call name args).2 = c.run actions
  send_refused : ∀ name args fault, ((c.run actions).send name args).1 = .error fault →
    ((c.run actions).send name args).2 = c.run actions
  /-- It fails for an unknown method, or for arguments that do not encode, and never else. -/
  call_accepted_iff : ∀ name args, (∃ id call, ((c.run actions).call name args).1 =
    .ok (id, call)) ↔ c.Accepted name args
  send_accepted_iff : ∀ name args, (∃ id, ((c.run actions).send name args).1 = .ok id) ↔
    c.Accepted name args

theorem Posts.accepted_iff {sent : List Outgoing} (h : Posts c next sent) {name : String}
    {args : StructValue} : next.Accepted name args ↔ c.Accepted name args := by
  unfold Accepted method
  rw [h.document_eq, h.service_eq, h.config_eq]

/-- In every run, a message that is refused changes nothing, and those that are accepted are
sent in order, each as its header and the encoding of its arguments. -/
theorem run_delivers {d : Compiled} {name : String} {config : WireConfig} {c : Client}
    (hc : Client.ofService d name config = .ok c) (hn : c.NamesShort) (actions : List Action) :
    c.Delivers actions := by
  have hempty : c.link = Link.empty := by
    obtain ⟨service, -, rfl⟩ := ofService_eq_ok hc
    rfl
  have hunsent : c.link.unsent = [] := by
    rw [hempty]
    rfl
  have hposts := run_posts hunsent hn actions
  have hn' := hposts.names_short hn
  refine ⟨?_, hposts.unsent_eq, hposts.encoded, ?_, ?_, ?_, ?_⟩
  · rw [hposts.frames_eq, hempty]
    rfl
  · intro name args fault hfault
    rcases call_cases hposts.unsent_eq hn' name args with
      ⟨_, -, hcall⟩ | ⟨_, _, _, _, -, -, hcall, -⟩
    · rw [hcall]
    · rw [hcall] at hfault
      cases hfault
  · intro name args fault hfault
    rcases send_cases hposts.unsent_eq hn' name args with
      ⟨_, -, hsend⟩ | ⟨_, _, _, -, -, hsend, -⟩
    · rw [hsend]
    · rw [hsend] at hfault
      cases hfault
  · intro name args
    rw [← hposts.accepted_iff]
    rcases call_cases hposts.unsent_eq hn' name args with
      ⟨_, hno, hcall⟩ | ⟨_, _, _, _, -, hyes, hcall, -⟩ <;> rw [hcall]
    · simp [hno]
    · simp [hyes]
  · intro name args
    rw [← hposts.accepted_iff]
    rcases send_cases hposts.unsent_eq hn' name args with
      ⟨_, hno, hsend⟩ | ⟨_, _, _, -, hyes, hsend, -⟩ <;> rw [hsend]
    · simp [hno]
    · simp [hyes]

/-- A call of a method that there is not, a message that is sent, and an answer to it. -/
def sentOnce : List Action :=
  [.call "open" (.empty ""), .send "close" (.empty ""), .newSequenceId,
    .receive {} (closeAnswer 1)]

theorem run_delivers_library :
    Client.ofService Document.libraryCodecs "Library" {} = .ok ofLibrary ∧
      ofLibrary.NamesShort ∧ ofLibrary.Delivers sentOnce ∧
      (ofLibrary.outbox sentOnce).length = 1 := by
  have hc : Client.ofService Document.libraryCodecs "Library" {} = .ok ofLibrary := rfl
  have hn : ofLibrary.NamesShort := by
    unfold NamesShort
    decide
  exact ⟨hc, hn, run_delivers hc hn sentOnce, by decide⟩

end Client

end Thrift
