-- What one action does to a client: a number is given out, a call is added or answered, or
-- nothing changes. The table of calls that wait keeps a number and a place for each of them.
import Mathlib.Data.List.Basic
import Mathlib.Data.List.Nodup
import Thrift.Proofs.Lookup
import Thrift.Proofs.Steps
import Thrift.Rpc.Client

namespace Thrift

/-- So many numbers there are for calls. -/
def idCount : Nat := 0x100000000

theorem Int32.ofNat_injective {i j : Nat} (hi : i < idCount) (hj : j < idCount)
    (h : Int32.ofNat i = Int32.ofNat j) : i = j := by
  have hword : (Int32.ofNat i).toUInt32.toNat = (Int32.ofNat j).toUInt32.toNat := by rw [h]
  rw [Int32.toUInt32_ofNat', Int32.toUInt32_ofNat', UInt32.toNat_ofNat',
    UInt32.toNat_ofNat'] at hword
  exact (Nat.mod_eq_of_lt hi).symm.trans (hword.trans (Nat.mod_eq_of_lt hj))

namespace Client

/-! ## Runs -/

/-- What is done with a client. Every message comes with the limits that it is read with. -/
inductive Action
  | call (method : String) (args : StructValue)
  | send (method : String) (args : StructValue)
  | newSequenceId
  | receive (config : WireConfig) (input : Bytes)

/-- The client after an action. Where a message cannot be read, the client stays as it was. -/
def step (c : Client) : Action → Client
  | .call name args => (c.call name args).2
  | .send name args => (c.send name args).2
  | .newSequenceId => c.advance 1
  | .receive config input =>
    match c.receive config input with
    | .ok next _ => next
    | .error _ _ => c

def run (c : Client) (actions : List Action) : Client := actions.foldl step c

/-- How many numbers are given out between two states. Each of them is a new last number. -/
def given (c next : Client) : Nat := if next.sequenceId = c.sequenceId then 0 else 1

/-- How many numbers are given out in a run. -/
def givenOut (c : Client) : List Action → Nat
  | [] => 0
  | a :: later => c.given (c.step a) + (c.step a).givenOut later

/-- A call that was accepted: its number, its method and its place among all calls. -/
structure Ticket where
  id : Int32
  method : Method
  call : Nat

/-- The ticket that an action gives, if it is a call that is accepted. -/
def ticket? (c : Client) : Action → Option Ticket
  | .call name args =>
    match c.method name, (c.call name args).1 with
    | .ok m, .ok (id, call) => some ⟨id, m, call⟩
    | _, _ => none
  | _ => none

/-- The tickets of a run, each with what was done after it. -/
def history (c : Client) : List Action → List (Ticket × List Action)
  | [] => []
  | a :: later => (c.ticket? a).toList.map (·, later) ++ (c.step a).history later

def Action.isMessage : Action → Bool
  | .receive .. => true
  | _ => false

/-- The number that a message carries, if its header can be read. -/
def Action.carried? : Action → Option Int32
  | .receive config input =>
    match MessageHeader.read config input with
    | .ok h _ => some h.sequenceId
    | .error _ _ => none
  | _ => none

/-- What the body of a message means for a call of the method. -/
def outcomeIn (d : Compiled) (config : WireConfig) (m : Method) (h : MessageHeader)
    (body : Bytes) : CallOutcome :=
  match readBody d config m h body with
  | .ok outcome _ => outcome
  | .error fault _ => .error (.protocol fault)

/-- The outcome of a call with this method and number, if the action is a message to it. -/
def Action.answer? (d : Compiled) (m : Method) (id : Int32) : Action → Option CallOutcome
  | .receive config input =>
    match MessageHeader.read config input with
    | .ok h body => if h.sequenceId = id then some (outcomeIn d config m h body) else none
    | .error _ _ => none
  | _ => none

/-- The outcome that the first message to a call gives. -/
def firstAnswer (d : Compiled) (m : Method) (id : Int32) (later : List Action) :
    Option CallOutcome :=
  later.findSome? (Action.answer? d m id)

/-- A call that was answered is settled. -/
def answered : Option CallOutcome → CallState
  | none => .waiting
  | some outcome => .settled outcome

/-- How its owner finds a call after more was done. Nobody answers a one-way call. -/
def Ticket.stateAfter (d : Compiled) (t : Ticket) (later : List Action) : CallState :=
  if t.method.oneway then .settled (.ok .void) else answered (firstAnswer d t.method t.id later)

@[simp] theorem advance_zero (c : Client) : c.advance 0 = c := by
  have hid : c.sequenceId + Int32.ofNat 0 = c.sequenceId := Int32.add_zero c.sequenceId
  rw [advance, hid]

theorem given_of_same {c next : Client} (h : next.sequenceId = c.sequenceId) :
    c.given next = 0 := if_pos h

theorem given_of_next {c next : Client} (h : next.sequenceId = c.sequenceId + 1) :
    c.given next = 1 := by
  have hne : next.sequenceId ≠ c.sequenceId := by grind
  exact if_neg hne

theorem run_append (c : Client) (actions more : List Action) :
    c.run (actions ++ more) = (c.run actions).run more := List.foldl_append

/-! ## One step -/

theorem lookup_pending_eq_none_iff {c : Client} {id : Int32} :
    c.pending.lookup id = none ↔ ∀ e ∈ c.pending, e.1 ≠ id := by
  rw [List.lookup_eq_none_iff]
  constructor
  · intro h e he heq
    exact bne_iff_ne.mp (h e he) heq.symm
  · intro h e he
    exact bne_iff_ne.mpr (h e he).symm

theorem mem_of_method {c : Client} {name : String} {m : Method} (h : c.method name = .ok m) :
    m ∈ c.service.methods := by
  unfold method at h
  split at h
  · rename_i found hfound
    cases h
    exact List.mem_of_find?_eq_some hfound
  · cases h

theorem method_of_ticket {c : Client} {a : Action} {t : Ticket} (h : c.ticket? a = some t) :
    t.method ∈ c.service.methods := by
  unfold ticket? at h
  split at h
  · split at h
    · rename_i hm _
      cases h
      exact mem_of_method hm
    · cases h
  · cases h

/-- Sending refuses a message as it stands, or takes a number for it and then fails or not. -/
inductive Sends (c : Client) : Except Fault Int32 × Client → Prop
  | refused (fault : Fault) : Sends c (.error fault, c)
  | failed (fault : Fault) (link : Link) : Sends c (.error fault, { c.advance 1 with link })
  | sent (link : Link) : Sends c (.ok (c.sequenceId + 1), { c.advance 1 with link })

theorem sendTo_sends (c : Client) (m : Method) (args : StructValue) :
    c.Sends (c.sendTo m args) := by
  unfold sendTo
  rcases Machine.validateAs c.document c.config.maxDepth m.argsStruct args with fault | _
  · exact .refused fault
  · dsimp only
    rcases (c.advance 1).link.write ((c.advance 1).message m args) with ⟨_ | _, link⟩
    · exact .failed _ link
    · exact .sent _

/-- What one action does to a client. -/
inductive Moves (c : Client) : Action → Client → Prop
  /-- At most a number is given out. -/
  | idle {a : Action} (n : Nat) (link : Link) (hn : n ≤ 1) (hticket : c.ticket? a = none)
      (hsent : a.isMessage = false) : Moves c a { c.advance n with link }
  | oneway {a : Action} {m : Method} (link : Link) (hm : m.oneway = true)
      (hticket : c.ticket? a = some ⟨c.sequenceId + 1, m, c.calls.length⟩)
      (hsent : a.isMessage = false) :
      Moves c a { c.advance 1 with link, calls := c.calls ++ [.settled (.ok .void)] }
  | called {a : Action} {m : Method} (link : Link) (hm : m.oneway = false)
      (hticket : c.ticket? a = some ⟨c.sequenceId + 1, m, c.calls.length⟩)
      (hsent : a.isMessage = false) :
      Moves c a (await { c.advance 1 with link, calls := c.calls ++ [.waiting] }
        (c.sequenceId + 1) ⟨m, c.calls.length⟩)
  /-- A message that nobody waits for, or that has no header. -/
  | dropped {config : WireConfig} {input : Bytes}
      (h : ∀ id, (Action.receive config input).carried? = some id → c.pending.lookup id = none) :
      Moves c (.receive config input) c
  | settled {config : WireConfig} {input body : Bytes} {h : MessageHeader} {p : PendingCall}
      (hread : MessageHeader.read config input = .ok h body)
      (hp : c.pending.lookup h.sequenceId = some p) :
      Moves c (.receive config input) ((c.removePending h.sequenceId).settleCall p.call
        (outcomeIn c.document config p.method h body))

theorem call_of_error {c : Client} {name : String} {fault : Fault}
    (hm : c.method name = .error fault) (args : StructValue) :
    c.call name args = (.error fault, c) := by
  rw [call, hm]

/-- A call is a message and a place. If it is two-way, it waits for the number of the message. -/
theorem call_of_method {c : Client} {name : String} {m : Method} (hm : c.method name = .ok m)
    (args : StructValue) : c.call name args =
      match c.sendTo m args with
      | (.error fault, next) => (.error fault, next)
      | (.ok id, next) =>
        if m.oneway then (.ok (id, next.calls.length),
          { next with calls := next.calls ++ [.settled (.ok .void)] })
        else (.ok (id, next.calls.length),
          await { next with calls := next.calls ++ [.waiting] } id ⟨m, next.calls.length⟩) := by
  rw [call, hm]
  rfl

theorem call_moves (c : Client) (name : String) (args : StructValue) :
    c.Moves (.call name args) (c.call name args).2 := by
  have hidle : ∀ n link, n ≤ 1 → c.ticket? (.call name args) = none →
      c.Moves (.call name args) { c.advance n with link } :=
    fun n link hn hticket => .idle n link hn hticket rfl
  rcases hm : c.method name with fault | m
  · have hticket : c.ticket? (.call name args) = none := by rw [ticket?, hm]
    rw [call_of_error hm]
    have hmove := hidle 0 c.link (Nat.zero_le 1) hticket
    rwa [advance_zero] at hmove
  · have hcall := call_of_method hm args
    have hsends := c.sendTo_sends m args
    generalize c.sendTo m args = sent at hcall hsends
    cases hsends with
    | refused fault =>
      have hticket : c.ticket? (.call name args) = none := by rw [ticket?, hm, hcall]
      rw [hcall]
      have hmove := hidle 0 c.link (Nat.zero_le 1) hticket
      rwa [advance_zero] at hmove
    | failed fault link =>
      have hticket : c.ticket? (.call name args) = none := by rw [ticket?, hm, hcall]
      rw [hcall]
      exact hidle 1 link (Nat.le_refl 1) hticket
    | sent link =>
      dsimp only at hcall
      rcases honeway : m.oneway with _ | _
      · rw [honeway, if_neg Bool.false_ne_true] at hcall
        have hticket : c.ticket? (.call name args) =
            some ⟨c.sequenceId + 1, m, c.calls.length⟩ := by
          rw [ticket?, hm, hcall]
          rfl
        rw [hcall]
        exact .called link honeway hticket rfl
      · rw [honeway, if_pos rfl] at hcall
        have hticket : c.ticket? (.call name args) =
            some ⟨c.sequenceId + 1, m, c.calls.length⟩ := by
          rw [ticket?, hm, hcall]
          rfl
        rw [hcall]
        exact .oneway link honeway hticket rfl

theorem send_moves (c : Client) (name : String) (args : StructValue) :
    c.Moves (.send name args) (c.send name args).2 := by
  have hstay : c.Moves (.send name args) c := by
    have hmove : c.Moves (.send name args) { c.advance 0 with link := c.link } :=
      .idle 0 c.link (Nat.zero_le 1) rfl rfl
    rwa [advance_zero] at hmove
  unfold send
  rcases c.method name with fault | m
  · exact hstay
  · dsimp only
    have hsends := c.sendTo_sends m args
    generalize c.sendTo m args = sent at hsends
    cases hsends with
    | refused fault => exact hstay
    | failed fault link => exact .idle 1 link (Nat.le_refl 1) rfl rfl
    | sent link => exact .idle 1 link (Nat.le_refl 1) rfl rfl

theorem receive_moves (c : Client) (config : WireConfig) (input : Bytes) :
    c.Moves (.receive config input) (c.step (.receive config input)) := by
  rw [step, receive]
  rcases hread : MessageHeader.read config input with ⟨h, body⟩ | ⟨fault, rest⟩
  · rw [Steps.bind_ok hread]
    rcases hp : c.pending.lookup h.sequenceId with _ | p
    · have hdropped : c.Moves (.receive config input) c := by
        refine .dropped fun id hid => ?_
        rw [Action.carried?, hread] at hid
        cases hid
        exact hp
      dsimp only
      rcases hskip : Reading.skip config .struct body with ⟨_, rest⟩ | ⟨fault, rest⟩
      · rw [Steps.bind_ok hskip]
        exact hdropped
      · rw [Steps.bind_error hskip]
        exact hdropped
    · dsimp only
      have hmove : c.Moves (.receive config input) ((c.removePending h.sequenceId).settleCall p.call
          (outcomeIn c.document config p.method h body)) := .settled hread hp
      rw [outcomeIn] at hmove
      rcases hbody : readBody c.document config p.method h body with ⟨outcome, rest⟩ | ⟨fault, rest⟩
      · have hok : orProtocol (readBody c.document config p.method h) body = .ok outcome rest := by
          rw [orProtocol, hbody]
        rw [Steps.bind_ok hok]
        rw [hbody] at hmove
        exact hmove
      · have hok : orProtocol (readBody c.document config p.method h) body =
            .ok (.error (.protocol fault)) rest := by rw [orProtocol, hbody]
        rw [Steps.bind_ok hok]
        rw [hbody] at hmove
        exact hmove
  · rw [Steps.bind_error hread]
    refine .dropped fun id hid => ?_
    rw [Action.carried?, hread] at hid
    cases hid

theorem step_moves (c : Client) (a : Action) : c.Moves a (c.step a) := by
  cases a with
  | call name args => exact c.call_moves name args
  | send name args => exact c.send_moves name args
  | newSequenceId => exact .idle 1 c.link (Nat.le_refl 1) rfl rfl
  | receive config input => exact c.receive_moves config input

/-! ## Bodies -/

/-- The body of a reply to a method is its result struct. -/
theorem readBody_reply {d : Compiled} {config : WireConfig} {m : Method} {h : MessageHeader}
    {struct : String} (htype : h.type = .reply) (hname : h.name = m.name)
    (hstruct : m.resultStruct = some struct) :
    readBody d config m h = outcomeOf m <$> Machine.decode d config struct := by
  rw [readBody, htype]
  dsimp only
  rw [if_neg (not_not.mpr hname), hstruct]
  rfl

/-- A message whose body is an answer settles the call that waits for its number. -/
theorem receive_answer {c : Client} {config : WireConfig} {h : MessageHeader} {p : PendingCall}
    {message body rest : Bytes} {outcome : CallOutcome}
    (hread : MessageHeader.read config message = .ok h body)
    (hp : c.pending.lookup h.sequenceId = some p)
    (hbody : readBody c.document config p.method h body = .ok outcome rest) :
    c.receive config message =
      .ok ((c.removePending h.sequenceId).settleCall p.call outcome) rest := by
  have hanswer : orProtocol (readBody c.document config p.method h) body = .ok outcome rest := by
    rw [orProtocol, hbody]
  rw [receive, Steps.bind_ok hread, hp]
  dsimp only
  rw [Steps.bind_ok hanswer]
  rfl

theorem readBody_exception {d : Compiled} {config : WireConfig} {m : Method} {h : MessageHeader}
    (htype : h.type = .exception) : readBody d config m h =
      (fun e => .error (.application e)) <$> ApplicationException.read config := by
  rw [readBody, htype]
  rfl

/-! ## Messages and calls -/

theorem Action.answer?_eq_none {a : Action} {id : Int32} (h : a.carried? ≠ some id) (d : Compiled)
    (m : Method) : a.answer? d m id = none := by
  cases a with
  | receive config input =>
    rw [answer?]
    rcases hread : MessageHeader.read config input with ⟨header, body⟩ | ⟨fault, rest⟩
    · rw [carried?, hread] at h
      exact if_neg fun heq => h (congrArg some heq)
    · rfl
  | _ => rfl

/-- What goes out answers no call. -/
theorem Action.answer?_of_sent {a : Action} (h : a.isMessage = false) (d : Compiled)
    (m : Method) (id : Int32) : a.answer? d m id = none := by
  cases a with
  | receive config input => cases h
  | _ => rfl

theorem Action.answer?_of_read {config : WireConfig} {input body : Bytes} {h : MessageHeader}
    (hread : MessageHeader.read config input = .ok h body) (d : Compiled) (m : Method) :
    (Action.receive config input).answer? d m h.sequenceId =
      some (outcomeIn d config m h body) := by
  rw [answer?, hread]
  exact if_pos rfl

theorem Action.carried?_of_read {config : WireConfig} {input body : Bytes} {h : MessageHeader}
    (hread : MessageHeader.read config input = .ok h body) :
    (Action.receive config input).carried? = some h.sequenceId := by
  rw [carried?, hread]

/-- A number that nobody waits for is added without cancelling a call. -/
theorem await_of_lookup {c : Client} {id : Int32} (h : c.pending.lookup id = none)
    (p : PendingCall) : c.await id p = { c with pending := (id, p) :: c.pending } := by
  have hfilter : c.pending.filter (·.1 != id) = c.pending :=
    List.filter_eq_self.mpr fun e he => bne_iff_ne.mpr (lookup_pending_eq_none_iff.mp h e he)
  unfold await removePending
  rw [h]
  dsimp only
  rw [hfilter]

theorem lookup_removePending (c : Client) (id : Int32) :
    (c.removePending id).pending.lookup id = none :=
  lookup_pending_eq_none_iff.mpr fun _ he => bne_iff_ne.mp (List.mem_filter.mp he).2

/-- A call that has the number is cancelled first, and then nobody has it. -/
theorem await_of_lookup_some {c : Client} {id : Int32} {displaced : PendingCall}
    (h : c.pending.lookup id = some displaced) (p : PendingCall) : c.await id p =
      ((c.removePending id).settleCall displaced.call (.error .cancelled)).await id p := by
  have hfree : ((c.removePending id).settleCall displaced.call
      (.error .cancelled)).pending.lookup id = none := c.lookup_removePending id
  rw [await_of_lookup hfree]
  unfold await
  rw [h]
  rfl

theorem settleCall_settled {c : Client} {k : Nat} {outcome : CallOutcome}
    (h : c.calls[k]? = some (.settled outcome)) (call : Nat) (other : CallOutcome) :
    (c.settleCall call other).calls[k]? = some (.settled outcome) := by
  rw [settleCall, List.getElem?_modify, h]
  split <;> rfl

theorem settleCall_waiting {c : Client} {k : Nat} (h : c.calls[k]? = some .waiting)
    (outcome : CallOutcome) : (c.settleCall k outcome).calls[k]? = some (.settled outcome) := by
  rw [settleCall, List.getElem?_modify, h]
  exact congrArg some (if_pos rfl)

theorem settleCall_ne (c : Client) {k call : Nat} (h : call ≠ k) (outcome : CallOutcome) :
    (c.settleCall call outcome).calls[k]? = c.calls[k]? := by
  rw [settleCall, List.getElem?_modify]
  rcases c.calls[k]? with _ | state
  · rfl
  · exact congrArg some (if_neg h)

theorem settleCall_length (c : Client) (call : Nat) (outcome : CallOutcome) :
    (c.settleCall call outcome).calls.length = c.calls.length := by
  rw [settleCall, List.length_modify]

theorem await_document (c : Client) (id : Int32) (p : PendingCall) :
    (c.await id p).document = c.document := by
  unfold await
  split <;> rfl

theorem await_sequenceId (c : Client) (id : Int32) (p : PendingCall) :
    (c.await id p).sequenceId = c.sequenceId := by
  unfold await
  split <;> rfl

theorem await_settled {c : Client} {k : Nat} {outcome : CallOutcome}
    (h : c.calls[k]? = some (.settled outcome)) (id : Int32) (p : PendingCall) :
    (c.await id p).calls[k]? = some (.settled outcome) := by
  unfold await
  split
  · exact settleCall_settled h _ _
  · exact h

theorem Moves.document_eq {c next : Client} {a : Action} (h : c.Moves a next) :
    next.document = c.document := by
  cases h with
  | called link hm hticket hsent => exact await_document _ _ _
  | _ => rfl

/-- A call that is settled stays as it is. -/
theorem Moves.settled_calls {c next : Client} {a : Action} (h : c.Moves a next) {k : Nat}
    {outcome : CallOutcome} (hk : c.calls[k]? = some (.settled outcome)) :
    next.calls[k]? = some (.settled outcome) := by
  have happend : ∀ state, (c.calls ++ [state])[k]? = some (.settled outcome) := by
    intro state
    obtain ⟨hlt, -⟩ := List.getElem?_eq_some_iff.mp hk
    rw [List.getElem?_append_left hlt, hk]
  cases h with
  | idle n link hn hticket hsent => exact hk
  | oneway link hm hticket hsent => exact happend _
  | called link hm hticket hsent => exact await_settled (happend _) _ _
  | dropped h => exact hk
  | settled hread hp => exact settleCall_settled hk _ _

/-! ## The table of calls that wait -/

/-- The state of a client that has given out so many numbers: every call that waits has a number
and a place of its own. -/
structure Sound (n : Nat) (c : Client) : Prop where
  last_id : c.sequenceId = Int32.ofNat n
  issued : ∀ e ∈ c.pending, ∃ i ≤ n, e.1 = Int32.ofNat i
  ids_nodup : (c.pending.map (·.1)).Nodup
  calls_nodup : (c.pending.map (·.2.call)).Nodup
  waiting : ∀ e ∈ c.pending, c.calls[e.2.call]? = some .waiting

namespace Sound

variable {n : Nat} {c next : Client} {a : Action}

theorem next_id (h : Sound n c) : c.sequenceId + 1 = Int32.ofNat (n + 1) := by
  rw [h.last_id]
  exact (Int32.ofNat_add n 1).symm

/-- Nobody waits for the next number. -/
theorem next_id_free (h : Sound n c) (hn : n + 1 < idCount) :
    c.pending.lookup (c.sequenceId + 1) = none := by
  rw [lookup_pending_eq_none_iff]
  intro e he heq
  obtain ⟨i, hi, hid⟩ := h.issued e he
  rw [h.next_id, hid] at heq
  have hsame := Int32.ofNat_injective (by omega) hn heq
  omega

/-- Calls that wait at one place are one call. -/
theorem eq_of_call_eq (h : Sound n c) {e e' : Int32 × PendingCall} (he : e ∈ c.pending)
    (he' : e' ∈ c.pending) (heq : e.2.call = e'.2.call) : e = e' :=
  List.inj_on_of_nodup_map h.calls_nodup he he' heq

theorem eq_of_id_eq (h : Sound n c) {e e' : Int32 × PendingCall} (he : e ∈ c.pending)
    (he' : e' ∈ c.pending) (heq : e.1 = e'.1) : e = e' :=
  List.inj_on_of_nodup_map h.ids_nodup he he' heq

theorem lookup_of_mem (h : Sound n c) {id : Int32} {p : PendingCall}
    (hp : (id, p) ∈ c.pending) : c.pending.lookup id = some p := by
  rcases hlookup : c.pending.lookup id with _ | p'
  · exact absurd rfl (lookup_pending_eq_none_iff.mp hlookup _ hp)
  · have hsame := h.eq_of_id_eq hp (mem_of_lookup hlookup) rfl
    cases hsame
    rfl

/-- When one call waits no longer, the others do. -/
theorem filter_perm (h : Sound n c) {e : Int32 × PendingCall}
    {others : List (Int32 × PendingCall)} (hperm : c.pending.Perm (e :: others)) :
    (c.pending.filter (·.1 != e.1)).Perm others := by
  have hids := (hperm.map (·.1)).nodup h.ids_nodup
  have hothers : others.filter (·.1 != e.1) = others := by
    refine List.filter_eq_self.mpr fun e' he' => bne_iff_ne.mpr fun heq => ?_
    exact (List.nodup_cons.mp hids).1 (List.mem_map.mpr ⟨e', he', heq⟩)
  have hfilter := hperm.filter (·.1 != e.1)
  rwa [List.filter_cons_of_neg (by simp), hothers] at hfilter

theorem call_lt (h : Sound n c) {e : Int32 × PendingCall} (he : e ∈ c.pending) :
    e.2.call < c.calls.length :=
  (List.getElem?_eq_some_iff.mp (h.waiting e he)).1

/-- A number more was given out, and calls were added behind the others. -/
theorem advance (h : Sound n c) (link : Link) (more : List CallState) :
    Sound (n + 1) { c.advance 1 with link, calls := c.calls ++ more } := by
  refine ⟨h.next_id, fun e he => ?_, h.ids_nodup, h.calls_nodup, fun e he => ?_⟩
  · obtain ⟨i, hi, hid⟩ := h.issued e he
    exact ⟨i, Nat.le_succ_of_le hi, hid⟩
  · exact (List.getElem?_append_left (h.call_lt he)).trans (h.waiting e he)

/-- One call waits no longer. -/
theorem settle (h : Sound n c) {id : Int32} {p : PendingCall}
    (hp : c.pending.lookup id = some p) (outcome : CallOutcome) :
    Sound n ((c.removePending id).settleCall p.call outcome) := by
  have hsub : (c.pending.filter (·.1 != id)).Sublist c.pending := List.filter_sublist
  refine ⟨h.last_id, fun e he => h.issued e (hsub.subset he), h.ids_nodup.sublist (hsub.map _),
    h.calls_nodup.sublist (hsub.map _), fun e he => ?_⟩
  have hne : p.call ≠ e.2.call := by
    intro heq
    have hsame := h.eq_of_call_eq (mem_of_lookup hp) (hsub.subset he) heq
    have hid : e.1 ≠ id := bne_iff_ne.mp (List.mem_filter.mp he).2
    exact hid (congrArg (·.1) hsame).symm
  rw [settleCall_ne _ hne]
  exact h.waiting e (hsub.subset he)

/-- One more call waits, at a place of its own, under a number that nobody waits for. -/
theorem await_free (h : Sound n c) {id : Int32} (hid : c.pending.lookup id = none)
    (hissued : ∃ i ≤ n, id = Int32.ofNat i) {call : Nat} (m : Method)
    (hcall : ∀ e ∈ c.pending, e.2.call ≠ call) (hwaiting : c.calls[call]? = some .waiting) :
    Sound n (c.await id ⟨m, call⟩) := by
  rw [await_of_lookup hid]
  refine ⟨h.last_id, ?_, ?_, ?_, ?_⟩
  · exact List.forall_mem_cons.mpr ⟨hissued, h.issued⟩
  · refine List.nodup_cons.mpr ⟨fun hmem => ?_, h.ids_nodup⟩
    obtain ⟨e, he, heq⟩ := List.mem_map.mp hmem
    exact lookup_pending_eq_none_iff.mp hid e he heq
  · refine List.nodup_cons.mpr ⟨fun hmem => ?_, h.calls_nodup⟩
    obtain ⟨e, he, heq⟩ := List.mem_map.mp hmem
    exact hcall e he heq
  · exact List.forall_mem_cons.mpr ⟨hwaiting, h.waiting⟩

/-- One more call waits, at a place of its own. The call that had its number waits no longer. -/
theorem await (h : Sound n c) {id : Int32} (hissued : ∃ i ≤ n, id = Int32.ofNat i) {call : Nat}
    (m : Method) (hcall : ∀ e ∈ c.pending, e.2.call ≠ call)
    (hwaiting : c.calls[call]? = some .waiting) : Sound n (c.await id ⟨m, call⟩) := by
  rcases hlookup : c.pending.lookup id with _ | displaced
  · exact h.await_free hlookup hissued m hcall hwaiting
  · rw [await_of_lookup_some hlookup]
    have hne : displaced.call ≠ call := hcall _ (mem_of_lookup hlookup)
    refine (h.settle hlookup _).await_free (c.lookup_removePending id) hissued m ?_ ?_
    · exact fun e he => hcall e (List.mem_of_mem_filter he)
    · rw [settleCall_ne _ hne]
      exact hwaiting

/-- A call that waits for the next number displaces no other. -/
theorem await_next (h : Sound n c) (hn : n + 1 < idCount) (link : Link) (m : Method) :
    Client.await { c.advance 1 with link, calls := c.calls ++ [.waiting] } (c.sequenceId + 1)
        ⟨m, c.calls.length⟩ =
      { c.advance 1 with
        link, calls := c.calls ++ [.waiting]
        pending := (c.sequenceId + 1, ⟨m, c.calls.length⟩) :: c.pending } := by
  have hfree : ({ c.advance 1 with link, calls := c.calls ++ [.waiting] } : Client).pending.lookup
      (c.sequenceId + 1) = none := h.next_id_free hn
  rw [await_of_lookup hfree]
  rfl

/-- One call more was made, and waits. -/
theorem called (h : Sound n c) (link : Link) (m : Method) :
    Sound (n + 1) (Client.await { c.advance 1 with link, calls := c.calls ++ [.waiting] }
      (c.sequenceId + 1) ⟨m, c.calls.length⟩) := by
  have hcall : ∀ e ∈ c.pending, e.2.call ≠ c.calls.length :=
    fun e he => Nat.ne_of_lt (h.call_lt he)
  exact (h.advance link [.waiting]).await ⟨n + 1, Nat.le_refl _, h.next_id⟩ m hcall
    List.getElem?_concat_length

theorem settle_given (c : Client) (id : Int32) (call : Nat) (outcome : CallOutcome) :
    c.given ((c.removePending id).settleCall call outcome) = 0 := given_of_same rfl

theorem called_given (c : Client) (link : Link) (p : PendingCall) :
    c.given (Client.await { c.advance 1 with link, calls := c.calls ++ [.waiting] }
      (c.sequenceId + 1) p) = 1 := given_of_next (await_sequenceId _ _ _)

/-- One step keeps the table sound, also when the numbers start again. -/
theorem moves (h : Sound n c) (hm : c.Moves a next) : Sound (n + c.given next) next := by
  cases hm with
  | idle k link hk hticket hsent =>
    rcases Nat.le_one_iff_eq_zero_or_eq_one.mp hk with rfl | rfl
    · have hgiven : c.given { c with link } = 0 := given_of_same rfl
      rw [advance_zero, hgiven]
      exact ⟨h.last_id, h.issued, h.ids_nodup, h.calls_nodup, h.waiting⟩
    · have hadvance := h.advance link []
      rw [List.append_nil] at hadvance
      rw [given_of_next rfl]
      exact hadvance
  | oneway link hm hticket hsent =>
    rw [given_of_next rfl]
    exact h.advance link _
  | called link hm hticket hsent =>
    rw [called_given]
    exact h.called link _
  | dropped h' =>
    rw [given_of_same rfl]
    exact h
  | settled hread hp =>
    rw [settle_given]
    exact h.settle hp _

/-! ## What one step answers -/

/-- A call waits after a step when it waited and was not answered, or when it is new. -/
theorem mem_pending_iff (h : Sound n c) (hm : c.Moves a next) (hn : n + c.given next < idCount)
    {e : Int32 × PendingCall} : e ∈ next.pending ↔
      (e ∈ c.pending ∧ a.answer? c.document e.2.method e.1 = none) ∨
        ∃ t, c.ticket? a = some t ∧ t.method.oneway = false ∧ e = (t.id, ⟨t.method, t.call⟩) := by
  have hnone : ∀ config input t, c.ticket? (.receive config input) ≠ some t := by
    intro _ _ _ ht
    cases ht
  cases hm with
  | idle k link hk hticket hsent =>
    rw [hticket, Action.answer?_of_sent hsent]
    simp [Client.advance]
  | oneway link hm hticket hsent =>
    rw [hticket, Action.answer?_of_sent hsent]
    simp [Client.advance, hm]
  | called link hm hticket hsent =>
    rw [called_given] at hn
    rw [h.await_next hn, hticket, Action.answer?_of_sent hsent, List.mem_cons]
    simp [hm, or_comm]
  | dropped h' =>
    constructor
    · intro he
      refine .inl ⟨he, Action.answer?_eq_none (fun hid => ?_) _ _⟩
      exact lookup_pending_eq_none_iff.mp (h' _ hid) e he rfl
    · rintro (⟨he, -⟩ | ⟨t, ht, -⟩)
      · exact he
      · exact absurd ht (hnone _ _ t)
  | @settled _ _ body header p hread hp =>
    have hmem : e ∈ (c.pending.filter (·.1 != header.sequenceId)) ↔
        e ∈ c.pending ∧ e.1 ≠ header.sequenceId := by
      rw [List.mem_filter, bne_iff_ne]
    refine hmem.trans ⟨?_, ?_⟩
    · rintro ⟨he, hne⟩
      refine .inl ⟨he, Action.answer?_eq_none (fun hid => ?_) _ _⟩
      rw [Action.carried?_of_read hread] at hid
      exact hne (Option.some.inj hid).symm
    · rintro (⟨he, hanswer⟩ | ⟨t, ht, -⟩)
      · refine ⟨he, fun heq => ?_⟩
        rw [heq, Action.answer?_of_read hread] at hanswer
        cases hanswer
      · exact absurd ht (hnone _ _ t)

/-- A call that waited is settled with the answer to it, if there is one. -/
theorem answered_calls (h : Sound n c) (hm : c.Moves a next) (hn : n + c.given next < idCount)
    {e : Int32 × PendingCall} (he : e ∈ c.pending) :
    next.calls[e.2.call]? = some (answered (a.answer? c.document e.2.method e.1)) := by
  have hwaiting : ∀ more, (c.calls ++ more)[e.2.call]? = some .waiting :=
    fun more => (List.getElem?_append_left (h.call_lt he)).trans (h.waiting e he)
  cases hm with
  | idle k link hk hticket hsent =>
    rw [Action.answer?_of_sent hsent]
    exact h.waiting e he
  | oneway link hm hticket hsent =>
    rw [Action.answer?_of_sent hsent]
    exact hwaiting _
  | called link hm hticket hsent =>
    rw [called_given] at hn
    rw [h.await_next hn, Action.answer?_of_sent hsent]
    exact hwaiting _
  | dropped h' =>
    rw [Action.answer?_eq_none fun hid => lookup_pending_eq_none_iff.mp (h' _ hid) e he rfl]
    exact h.waiting e he
  | @settled _ _ body header p hread hp =>
    have hmem := mem_of_lookup hp
    by_cases hid : e.1 = header.sequenceId
    · cases h.eq_of_id_eq he hmem hid
      rw [Action.answer?_of_read hread]
      exact settleCall_waiting (h.waiting _ he) _
    · have hne : p.call ≠ e.2.call :=
        fun heq => hid (congrArg (·.1) (h.eq_of_call_eq he hmem heq.symm))
      rw [settleCall_ne _ hne, Action.answer?_eq_none fun heq => ?_]
      · exact h.waiting e he
      · rw [Action.carried?_of_read hread] at heq
        exact hid (Option.some.inj heq).symm

end Sound

/-- An accepted call takes the next number and the next place. -/
theorem Moves.ticket {c next : Client} {a : Action} (h : c.Moves a next) {t : Ticket}
    (ht : c.ticket? a = some t) :
    t.id = c.sequenceId + 1 ∧ t.call = c.calls.length ∧ c.given next = 1 ∧
      (t.method.oneway = true → next.calls[t.call]? = some (.settled (.ok .void))) := by
  cases h with
  | idle k link hk hticket hsent =>
    rw [hticket] at ht
    cases ht
  | oneway link hm hticket hsent =>
    cases hticket.symm.trans ht
    exact ⟨rfl, rfl, given_of_next rfl, fun _ => List.getElem?_concat_length⟩
  | called link hm hticket hsent =>
    cases hticket.symm.trans ht
    refine ⟨rfl, rfl, Sound.called_given c link _, fun honeway => ?_⟩
    rw [hm] at honeway
    cases honeway
  | dropped h' => cases ht
  | settled hread hp => cases ht

/-- A call waits after a step only if it waited before or has just been accepted. -/
theorem Moves.mem_pending {c next : Client} {a : Action} (h : c.Moves a next)
    {e : Int32 × PendingCall} (he : e ∈ next.pending) : e ∈ c.pending ∨
      ∃ t, c.ticket? a = some t ∧ t.method.oneway = false ∧ e = (t.id, ⟨t.method, t.call⟩) := by
  cases h with
  | idle k link hk hticket hsent => exact .inl he
  | oneway link hm hticket hsent => exact .inl he
  | called link hm hticket hsent =>
    unfold await at he
    rcases List.mem_cons.mp he with rfl | he
    · exact .inr ⟨_, hticket, hm, rfl⟩
    · refine .inl ?_
      have hmem := List.mem_of_mem_filter he
      split at hmem <;> exact hmem
  | dropped => exact .inl he
  | settled hread hp => exact .inl (List.mem_of_mem_filter he)

/-- One place is added for each accepted call. -/
theorem Moves.calls_length {c next : Client} {a : Action} (h : c.Moves a next) :
    next.calls.length = c.calls.length + (c.ticket? a).toList.length := by
  cases h with
  | idle k link hk hticket hsent => rw [hticket]; rfl
  | oneway link hm hticket hsent => rw [hticket]; exact List.length_append
  | called link hm hticket hsent =>
    rw [hticket]
    unfold await
    split
    · exact (settleCall_length _ _ _).trans List.length_append
    · exact List.length_append
  | dropped h' => rfl
  | settled hread hp => exact settleCall_length _ _ _

end Client

end Thrift
