-- Procedures that are well formed. Whatever is decoded or encoded with a compiled document, and
-- whatever messages a client receives, no fault blames the procedures: none of them takes a
-- binding that there is not, names a struct without a codec or ends without a result. Only the
-- input, the value and the limits can be at fault.
import Thrift.Proofs.Closure
import Thrift.Proofs.Correlation
import Thrift.Proofs.DecodeRefines
import Thrift.Proofs.EncodeRefines
import Thrift.Proofs.Faults
import Thrift.Proofs.Message

namespace Thrift

/-- The fault is one of the procedures, and not of what they were run on. -/
def Fault.isCodegen : Fault → Bool
  | codegen _ => true
  | _ => false

/-! ## Readings -/

namespace Reading

variable {α β σ : Type}

/-- No fault of the reading is one of the procedures. -/
def Clean (m : Reading α) : Prop :=
  ∀ unread fault rest, m unread = .error fault rest → fault.isCodegen = false

namespace Clean

theorem pure (a : α) : Clean (Pure.pure a : Reading α) := by
  intro unread fault rest h
  cases h

theorem fail (cause : ProtocolFault) : Clean (Reading.fail cause : Reading α) := by
  intro unread fault rest h
  cases h
  rfl

theorem bind {m : Reading α} {f : α → Reading β} (hm : Clean m) (hf : ∀ a, Clean (f a)) :
    Clean (m >>= f) := by
  intro unread fault rest h
  rcases ha : m unread with ⟨a, mid⟩ | ⟨fault', mid⟩
  · rw [Steps.bind_ok ha] at h
    exact hf a mid fault rest h
  · rw [Steps.bind_error ha] at h
    cases h
    exact hm unread _ _ ha

theorem take (n : Nat) : Clean (Reading.take n) := by
  intro unread fault rest h
  unfold Reading.take at h
  split at h
  · cases h
    rfl
  · cases h

/-- The bound of the loop is never met, so it ends as one of its rounds does. -/
theorem fields {body : FieldHeader → σ → Reading σ} (hh : Clean fieldHeader)
    (ht : ∀ header state, Takes (body header state)) (h : ∀ header state, Clean (body header state))
    (state : σ) : Clean (Reading.fields body state) := by
  intro unread fault rest hr
  induction hn : unread.length using Nat.strongRecOn generalizing unread state with
  | ind n ih =>
    rw [fields_eq ht] at hr
    rcases hheader : fieldHeader unread with ⟨header, mid⟩ | ⟨fault', mid⟩
    · rw [Steps.bind_ok hheader] at hr
      have hmid := fieldHeader_shorter hheader
      split at hr
      · cases hr
      · rcases hnext : body header state mid with ⟨next, mid'⟩ | ⟨fault', mid'⟩
        · rw [Steps.bind_ok hnext] at hr
          have hmid' := (ht header state).length_le hnext
          exact ih mid'.length (by omega) next mid' hr rfl
        · rw [Steps.bind_error hnext] at hr
          cases hr
          exact h header state mid _ _ hnext
    · rw [Steps.bind_error hheader] at hr
      cases hr
      exact hh unread _ _ hheader

theorem law : Law @Clean where
  pure := pure
  fail := fail
  bind := bind
  take := take
  fields := fields

end Clean

end Reading

/-! ## Writings -/

namespace Writing

variable {α : Type}

/-- No fault of the writing is one of the procedures. -/
def Clean (w : Writing α) : Prop := ∀ fault, w.outcome = .error fault → fault.isCodegen = false

namespace Clean

/-- A value of another kind is a fault of the value. -/
theorem refused (expected : String) (v : Value) :
    Clean (Machine.given (Machine.mistaken expected v) fun _ : Unit => Writing.done ()) := by
  intro fault h
  cases h
  rfl

theorem scalar (kind : ScalarKind) (v : Value) : Clean (Machine.writeScalar kind v) := by
  unfold Machine.writeScalar
  split <;> first | exact FailsBy.put _ | exact FailsBy.binary (fun _ => rfl) _ | exact refused _ _

variable {nested : Machine.Nested}

/-- Values are written cleanly as a form when the structs that the form names are. -/
theorem value (form : Form) (hn : ∀ name ∈ form.structs, ∀ v, Clean (nested name v)) (v : Value) :
    Clean (form.write nested v) := by
  induction form generalizing v with
  | scalar kind => exact scalar kind v
  | struct name =>
    rw [Form.write, Machine.writeValue]
    split
    · exact hn name List.mem_cons_self _
    · exact refused _ _
  | list element ih =>
    cases v with
    | list vs =>
      exact FailsBy.bind (FailsBy.elementsHeader (fun _ => rfl) _ _) fun _ =>
        FailsBy.items fun v _ => ih hn v
    | _ => exact refused _ _
  | set element ih =>
    cases v with
    | set vs =>
      exact FailsBy.bind (FailsBy.elementsHeader (fun _ => rfl) _ _) fun _ =>
        FailsBy.items fun v _ => ih hn v
    | _ => exact refused _ _
  | map key value ihk ihv =>
    have hk := ihk fun name hname => hn name (List.mem_append_left _ hname)
    have hv := ihv fun name hname => hn name (List.mem_append_right _ hname)
    cases v with
    | map es =>
      exact FailsBy.bind (FailsBy.entriesHeader (fun _ => rfl) _ _ _) fun _ =>
        FailsBy.entries (fun e _ => hk e.1) fun e _ => hv e.2
    | _ => exact refused _ _
  | void => exact FailsBy.pure ()

/-- An instance is written cleanly when the structs that its members name are. -/
theorem record {r : Record} (hn : ∀ name ∈ r.structs, ∀ v, Clean (nested name v))
    (v : StructValue) : Clean (r.write nested v) := by
  refine FailsBy.record (fun _ _ => rfl) (fun _ => rfl) fun m hm w _ => value m.form ?_ w
  intro name hname
  exact hn name (List.mem_flatMap.mpr ⟨m, List.mem_of_mem_filter hm, hname⟩)

/-- In a closed schema, every struct that has a record is written cleanly. -/
theorem struct {s : Schema} (hs : s.Closed) (maxDepth levels : Nat) {name : String} {r : Record}
    (hr : s.record? name = some r) (v : StructValue) :
    Clean (s.writeWithin maxDepth levels name v) := by
  induction levels generalizing name r v with
  | zero => exact FailsBy.fail rfl
  | succ levels ih =>
    rw [Schema.writeWithin, hr]
    apply record
    intro inner hinner
    obtain ⟨r', hr'⟩ := hs r (Schema.mem_of_record? hr) inner hinner
    exact ih hr'

end Clean

end Writing

/-! ## Messages -/

/-- No call is settled with a fault of the procedures. -/
def CallState.Clean (state : CallState) : Prop :=
  ∀ fault, state = .settled (.error (.protocol fault)) → fault.isCodegen = false

namespace Client

/-- A method that a reply can be read for. -/
def Answerable (s : Schema) (m : Method) : Prop :=
  ∃ struct r, m.resultStruct = some struct ∧ s.record? struct = some r

/-- Only two-way methods of the service are waited for, replies to them can be read, and no call
was settled with a fault of the procedures. -/
structure Whole (s : Schema) (c : Client) : Prop where
  realizes : c.document.RealizesSchema s
  methods : ∀ m ∈ c.service.methods, m.oneway = false → Answerable s m
  pending : ∀ e ∈ c.pending, Answerable s e.2.method
  calls : ∀ state ∈ c.calls, state.Clean

variable {s : Schema} {c next : Client}

theorem readBody_clean (hs : s.Closed) {d : Compiled} (hd : d.RealizesSchema s)
    (config : WireConfig) {m : Method} (hm : Answerable s m) (h : MessageHeader) :
    Reading.Clean (readBody d config m h) := by
  have hrefuse : ∀ e, Reading.Clean (refuseBody config e) := fun e =>
    Reading.Clean.law.map (Reading.Clean.law.skip config .struct) _
  unfold readBody
  split
  · exact Reading.Clean.law.map (Reading.Clean.law.exception config) _
  · exact hrefuse _
  · exact hrefuse _
  · split
    · exact hrefuse _
    · obtain ⟨struct, r, hstruct, hr⟩ := hm
      rw [hstruct]
      apply Reading.Clean.law.map
      rw [Machine.decode, Machine.decodeWithin_eq hd (Nat.le_refl _)]
      exact Reading.Clean.law.struct hs _ config _ hr

theorem settleCall_clean {call : Nat} {outcome : CallOutcome}
    (h : ∀ state ∈ c.calls, state.Clean) (ho : (CallState.settled outcome).Clean) :
    ∀ state ∈ (c.settleCall call outcome).calls, state.Clean := by
  intro state hstate
  obtain ⟨k, hk⟩ := List.mem_iff_getElem?.mp hstate
  rw [settleCall, List.getElem?_modify] at hk
  obtain ⟨before, hbefore, rfl⟩ := Option.map_eq_some_iff.mp hk
  have hclean := h before (List.mem_of_getElem? hbefore)
  split
  · cases before with
    | waiting => exact ho
    | _ => exact hclean
  · exact hclean

theorem outcomeOf_clean (m : Method) (result : StructValue) :
    (CallState.settled (outcomeOf m result)).Clean := by
  intro fault h
  unfold outcomeOf at h
  split at h
  · cases h
  · split at h
    · cases h
    · split at h <;> cases h

/-- What the body of a message means for a call is never a fault of the procedures. -/
theorem outcomeIn_clean (hs : s.Closed) {d : Compiled} (hd : d.RealizesSchema s)
    (config : WireConfig) {m : Method} (hm : Answerable s m) (h : MessageHeader) (body : Bytes) :
    (CallState.settled (outcomeIn d config m h body)).Clean := by
  unfold outcomeIn
  rcases hbody : readBody d config m h body with ⟨outcome, rest⟩ | ⟨fault, rest⟩
  · have hrefused : ∀ {e : ApplicationException} {before after : Bytes} {outcome : CallOutcome},
        refuseBody config e before = .ok outcome after → (CallState.settled outcome).Clean := by
      intro e before after outcome hrefuse fault hfault
      obtain ⟨_, -, rfl⟩ := Steps.map_eq_ok_iff.mp hrefuse
      cases hfault
    rcases htype : h.type with _ | _ | _ | _
    · rw [readBody, htype] at hbody
      exact hrefused hbody
    · by_cases hname : h.name = m.name
      · obtain ⟨struct, r, hstruct, -⟩ := hm
        rw [readBody_reply htype hname hstruct] at hbody
        obtain ⟨result, -, rfl⟩ := Steps.map_eq_ok_iff.mp hbody
        exact outcomeOf_clean m result
      · rw [readBody, htype] at hbody
        dsimp only at hbody
        rw [if_pos hname] at hbody
        exact hrefused hbody
    · rw [readBody_exception htype] at hbody
      obtain ⟨e, -, rfl⟩ := Steps.map_eq_ok_iff.mp hbody
      intro fault hfault
      cases hfault
    · rw [readBody, htype] at hbody
      exact hrefused hbody
  · intro fault' hfault
    cases hfault
    exact readBody_clean hs hd config hm h body fault rest hbody

/-- A message that cannot be received is at fault itself. -/
theorem receive_clean (c : Client) (config : WireConfig) : Reading.Clean (c.receive config) := by
  unfold receive
  apply Reading.Clean.law.bind (Reading.Clean.law.messageHeader config)
  intro header
  split
  · exact Reading.Clean.law.map (Reading.Clean.law.skip config .struct) _
  · apply Reading.Clean.law.map
    intro unread fault rest hr
    unfold orProtocol at hr
    split at hr <;> cases hr

namespace Whole

/-- One step keeps a client whole. -/
theorem moves (hs : s.Closed) (h : Whole s c) {a : Action} (hm : c.Moves a next) :
    Whole s next := by
  have happend : ∀ {state : CallState}, state.Clean →
      ∀ state' ∈ c.calls ++ [state], state'.Clean := by
    intro state hstate state' hmem
    rcases List.mem_append.mp hmem with hmem | hmem
    · exact h.calls state' hmem
    · cases List.mem_singleton.mp hmem
      exact hstate
  have hpending : ∀ e ∈ next.pending, Answerable s e.2.method := by
    intro e he
    rcases hm.mem_pending he with he | ⟨t, ht, htwo, rfl⟩
    · exact h.pending e he
    · exact h.methods _ (method_of_ticket ht) htwo
  cases hm with
  | idle n link hn hticket hsent => exact ⟨h.realizes, h.methods, hpending, h.calls⟩
  | oneway link honeway hticket hsent =>
    refine ⟨h.realizes, h.methods, hpending, happend fun fault hfault => ?_⟩
    cases hfault
  | called link htwo hticket hsent =>
    have hwaiting : ∀ state ∈ c.calls ++ [CallState.waiting], state.Clean :=
      happend fun fault hfault => by cases hfault
    unfold await at hpending ⊢
    split at hpending
    · refine ⟨h.realizes, h.methods, hpending, settleCall_clean hwaiting fun fault hfault => ?_⟩
      cases hfault
    · exact ⟨h.realizes, h.methods, hpending, hwaiting⟩
  | dropped => exact h
  | settled hread hp =>
    have hanswerable := h.pending _ (mem_of_lookup hp)
    refine ⟨h.realizes, h.methods, hpending, ?_⟩
    exact settleCall_clean h.calls (outcomeIn_clean hs h.realizes _ hanswerable _ _)

theorem run (hs : s.Closed) (h : Whole s c) (actions : List Action) :
    Whole s (c.run actions) := by
  induction actions generalizing c with
  | nil => exact h
  | cons a later ih => exact ih (h.moves hs (c.step_moves a))

end Whole

end Client

/-! ## Compiled documents -/

/-- What runs with a compiled document, and never ends with a fault of the procedures. -/
structure Document.WellFormed (d : Document) (c : Compiled) : Prop where
  decode_clean : ∀ carrier ∈ d.carriers, ∀ (config : WireConfig) (input : Bytes) (fault : Fault)
    (rest : Bytes), Machine.decode c config carrier.2.name input = .error fault rest →
      fault.isCodegen = false
  encode_clean : ∀ carrier ∈ d.carriers, ∀ (config : WireConfig) (v : StructValue) (fault : Fault),
    (Machine.encodeAs c config carrier.2.name v).outcome = .error fault → fault.isCodegen = false
  /-- A client does not fail with one, and does not settle a call with one either. -/
  receive_clean : ∀ (name : String) (config : WireConfig) (client : Client),
    Client.ofService c name config = .ok client → ∀ (actions : List Client.Action)
      (readConfig : WireConfig) (input : Bytes) (fault : Fault) (rest : Bytes),
      (client.run actions).receive readConfig input = .error fault rest → fault.isCodegen = false
  settled_clean : ∀ (name : String) (config : WireConfig) (client : Client),
    Client.ofService c name config = .ok client → ∀ (actions : List Client.Action) (k : Nat)
      (fault : Fault), (client.run actions).calls[k]? = some (.settled (.error (.protocol fault))) →
      fault.isCodegen = false

/-- A client that nothing was done with is whole. -/
theorem Client.whole_of_ofService {d : Document} {c : Compiled} {s : Schema}
    (hc : d.compile = .ok c) (hs : d.schema = .ok s) (hrealizes : c.RealizesSchema s)
    {name : String} {config : WireConfig} {client : Client}
    (h : Client.ofService c name config = .ok client) : client.Whole s := by
  obtain ⟨service, hservice, rfl⟩ := Client.ofService_eq_ok h
  obtain ⟨t, ht, hdeclared⟩ := Document.declares_of_compile hc
  refine ⟨hrealizes, fun m hm htwo => ?_, ?_, ?_⟩
  · have hdeclares := hdeclared service (List.mem_of_find?_eq_some hservice) m hm
    obtain ⟨struct, form, hstruct, -, hr⟩ := hdeclares.result hc ht hs hrealizes htwo
    exact ⟨struct, _, hstruct, hr⟩
  · exact fun _ he => absurd he List.not_mem_nil
  · exact fun _ hstate => absurd hstate List.not_mem_nil

/-- No run of a compiled document ends with a fault of its procedures. -/
theorem Document.wellFormed_of_compile {d : Document} {c : Compiled} (h : d.compile = .ok c) :
    d.WellFormed c := by
  obtain ⟨s, hs, hrealizes⟩ := Compiled.realizes_of_compile h
  obtain ⟨t, ht, -⟩ := declares_of_compile h
  have hclosed := closed_of_compile h ht hs hrealizes
  have hrecord : ∀ carrier ∈ d.carriers, ∃ r, s.record? carrier.2.name = some r := by
    intro carrier hcarrier
    obtain ⟨r, -, hr⟩ := record_of_carrier h ht hs hrealizes hcarrier
    exact ⟨r, hr⟩
  refine ⟨?_, ?_, ?_, ?_⟩
  · intro carrier hcarrier config input fault rest hfault
    obtain ⟨r, hr⟩ := hrecord carrier hcarrier
    rw [Machine.decode, Machine.decodeWithin_eq hrealizes (Nat.le_refl _)] at hfault
    exact Reading.Clean.law.struct hclosed _ config _ hr input fault rest hfault
  · intro carrier hcarrier config v fault hfault
    obtain ⟨r, hr⟩ := hrecord carrier hcarrier
    rw [Machine.encodeAs_eq_write hrealizes] at hfault
    exact Writing.Clean.struct hclosed _ _ hr v fault hfault
  · intro name config client hclient actions readConfig input fault rest hfault
    exact (client.run actions).receive_clean readConfig input fault rest hfault
  · intro name config client hclient actions k fault hfault
    have hwhole := (Client.whole_of_ofService h hs hrealizes hclient).run hclosed actions
    exact hwhole.calls _ (List.mem_of_getElem? hfault) fault rfl

theorem Document.wellFormed_library :
    Document.library.compile = .ok Document.libraryCodecs ∧
      Document.library.WellFormed Document.libraryCodecs :=
  ⟨compile_library, wellFormed_of_compile compile_library⟩

end Thrift
