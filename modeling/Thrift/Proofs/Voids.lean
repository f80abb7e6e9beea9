-- Replies to methods that return nothing. Such a method may be declared with `void` or with a
-- typedef of it. Both have the same result struct on the wire, but the outcome of a call is read
-- off the type as it is spelled, so that only calls of the first kind end well.
import Thrift.Proofs.Correlation
import Thrift.Proofs.Cycles
import Thrift.Proofs.Results
import Thrift.Proofs.Segments

namespace Thrift

/-! ## Results without an exception -/

namespace Method

/-- Nothing in the result is an exception that the method declares, and all of it can be passed
over. -/
def Unexceptional (m : Method) (config : WireConfig) (segments : List Segment) : Prop :=
  ∀ g ∈ segments, Reading.skip config g.header.type g.payload = .ok () [] ∧
    ∀ slot ∈ m.exceptions, ¬ (g.header.id = slot.id ∧ g.header.type = .struct)

/-- How a call ends when its result has neither a value nor an exception in it. -/
def endedEmpty (m : Method) : CallOutcome :=
  if m.returnType = .void then .ok .void
  else .error (.application ⟨.missingResult, s!"{m.name} failed: unknown result"⟩)

variable {m : Method} {config : WireConfig} {segments : List Segment} {struct : String}

/-- Only the declared exceptions are sent in the result of a method that returns nothing. -/
theorem sent_void (m : Method) (struct : String) :
    (m.resultRecord struct .void).sent = m.exceptions.map ExceptionSlot.toMember := by
  have hsent : ∀ member ∈ m.exceptions.map ExceptionSlot.toMember, (!member.isVoid) = true := by
    intro member hmember
    obtain ⟨slot, -, rfl⟩ := List.mem_map.mp hmember
    rfl
  exact List.filter_eq_self.mpr hsent

theorem Unexceptional.foreign (h : m.Unexceptional config segments) :
    ∀ g ∈ segments, (m.resultRecord struct .void).member? g = none ∧
      Reading.skip config g.header.type g.payload = .ok () [] := by
  intro g hg
  obtain ⟨hskip, hnone⟩ := h g hg
  refine ⟨List.find?_eq_none.mpr fun member hmember hof => ?_, hskip⟩
  rw [sent_void] at hmember
  obtain ⟨slot, hslot, rfl⟩ := List.mem_map.mp hmember
  exact hnone slot hslot (Segment.isOf_iff.mp hof)

end Method

/-- Fields without defaults stay unset when nothing was decoded. -/
theorem Machine.filled_nothing {inits : List FieldInit} (h : ∀ f ∈ inits, f.default = none) :
    filled inits [] = [] := by
  unfold filled
  induction inits with
  | nil => rfl
  | cons f inits ih =>
    obtain ⟨hf, hinits⟩ := List.forall_mem_cons.mp h
    rw [List.foldl_cons]
    simp only [List.lookup_nil, hf]
    exact ih hinits

/-- A result is built of nothing at all, as none of its fields is required or has a default. -/
theorem Method.construct_nothing (m : Method) (struct : String) (form : Form) (rest : Bytes) :
    (m.resultRecord struct form).construct [] rest = .ok (.empty struct) rest := by
  have hplain : ∀ f ∈ (m.resultRecord struct form).sent.map Member.toInit,
      f.required = false ∧ f.default = none := by
    intro f hf
    obtain ⟨member, hmember, rfl⟩ := List.mem_map.mp hf
    exact HasResult.member_plain (List.mem_of_mem_filter hmember)
  have hbuilt : (m.resultRecord struct form).built [] = .ok (.empty struct) := by
    refine Machine.build_eq_ok_iff.mpr ⟨fun f hf hrequired => ?_, fun hkind => ?_, ?_⟩
    · rw [(hplain f hf).1] at hrequired
      cases hrequired
    · cases hkind
    · rw [Machine.filled_nothing fun f hf => (hplain f hf).2]
      rfl
  unfold Record.construct
  rw [Record.built] at hbuilt
  rw [hbuilt]
  rfl

/-! ## Calls that wait -/

namespace Client

/-- A client of the service, with the codecs of the document, that waits for two-way methods of the
service only. -/
structure Enlisted (d : Compiled) (service : ServiceCodec) (c : Client) : Prop where
  document_eq : c.document = d
  service_eq : c.service = service
  methods : ∀ e ∈ c.pending, e.2.method ∈ service.methods ∧ e.2.method.oneway = false

variable {c next : Client} {d : Compiled} {service : ServiceCodec}

theorem Moves.service_eq {a : Action} (h : c.Moves a next) : next.service = c.service := by
  cases h with
  | called link hm hticket hsent =>
    unfold await
    split <;> rfl
  | _ => rfl

theorem Enlisted.moves (h : Enlisted d service c) {a : Action} (hm : c.Moves a next) :
    Enlisted d service next := by
  refine ⟨hm.document_eq.trans h.document_eq, hm.service_eq.trans h.service_eq, fun e he => ?_⟩
  rcases hm.mem_pending he with he | ⟨t, ht, htwo, rfl⟩
  · exact h.methods e he
  · have hmethod := method_of_ticket ht
    rw [h.service_eq] at hmethod
    exact ⟨hmethod, htwo⟩

theorem Enlisted.run (h : Enlisted d service c) (actions : List Action) :
    Enlisted d service (c.run actions) := by
  induction actions generalizing c with
  | nil => exact h
  | cons a later ih => exact ih (h.moves (c.step_moves a))

theorem outcomeOf_empty (m : Method) (struct : String) :
    outcomeOf m (.empty struct) = m.endedEmpty := by
  rw [outcomeOf_nothing fun _ => rfl, Method.returnsVoid, Method.endedEmpty]
  simp only [beq_iff_eq]

/-- The result of a method that returns nothing is read past everything that it holds. -/
theorem readBody_unexceptional {d : Compiled} {s : Schema} (hs : d.RealizesSchema s)
    (hclosed : s.Closed) {config : WireConfig} (hconfig : 0 < config.maxDepth) {m : Method}
    {struct : String} (hstruct : m.resultStruct = some struct)
    (hr : s.record? struct = some (m.resultRecord struct .void)) {h : MessageHeader}
    (htype : h.type = .reply) (hname : h.name = m.name) {segments : List Segment}
    (hplain : m.Unexceptional config segments) (rest : Bytes) :
    readBody d config m h (Segment.stream segments ++ rest) = .ok m.endedEmpty rest := by
  have hdecode := Record.decode_foreign hs hclosed hconfig hr hplain.foreign rest
  rw [Method.construct_nothing] at hdecode
  rw [readBody_reply htype hname hstruct]
  exact Steps.map_eq_ok_iff.mpr ⟨_, hdecode, outcomeOf_empty m struct⟩

/-- A reply without an exception settles a call of a method that returns nothing. The call ends
well where the method is declared with `void` itself. Behind a typedef it ends as if the result
lacked a value. -/
theorem void_settled {d : Document} {c : Compiled} (hc : d.compile = .ok c) :
    ∃ t, SymbolTable.ofDocument d = .ok t ∧
      ∀ (name : String) (sending : WireConfig) (client : Client),
        Client.ofService c name sending = .ok client →
        ∀ (actions : List Action) (id : Int32) (p : PendingCall),
          (client.run actions).pending.lookup id = some p →
          p.method.returnType.HasForm t .void →
          ∀ (config : WireConfig) (message rest : Bytes) (segments : List Segment),
            0 < config.maxDepth →
            MessageHeader.read config message =
              .ok ⟨p.method.name, .reply, id⟩ (Segment.stream segments ++ rest) →
            p.method.Unexceptional config segments →
              ∃ next, (client.run actions).receive config message = .ok next rest ∧
                next.pending.lookup id = none ∧
                next.calls[p.call]? = some (.settled p.method.endedEmpty) := by
  obtain ⟨s, hs, hrealizes⟩ := Compiled.realizes_of_compile hc
  obtain ⟨t, ht, hdeclared⟩ := Document.declares_of_compile hc
  have hclosed := Document.closed_of_compile hc ht hs hrealizes
  refine ⟨t, ht, fun name sending client hclient actions id p hp hvoid config message rest segments
    hconfig hread hplain => ?_⟩
  have hsound := (Fresh.ofService hclient).sound.run actions
  obtain ⟨service, hservice, rfl⟩ := ofService_eq_ok hclient
  have hfresh : Enlisted c service ⟨c, service, sending, Link.empty, 0, [], []⟩ :=
    ⟨rfl, rfl, fun e he => absurd he List.not_mem_nil⟩
  have henlisted := hfresh.run actions
  obtain ⟨hmethod, htwo⟩ := henlisted.methods _ (mem_of_lookup hp)
  -- The result struct of the method has its record, and what the method returns has no values.
  have hdeclares := hdeclared service (List.mem_of_find?_eq_some hservice) _ hmethod
  obtain ⟨struct, form, hstruct, hform, hr⟩ := hdeclares.result hc ht hs hrealizes htwo
  cases (FieldType.hasForm_of_formWithin hform).unique hvoid
  have hbody := readBody_unexceptional hrealizes hclosed hconfig hstruct hr rfl rfl hplain rest
    (h := ⟨p.method.name, .reply, id⟩)
  rw [← henlisted.document_eq] at hbody
  refine ⟨_, receive_answer hread hp hbody, lookup_removePending _ id, ?_⟩
  exact settleCall_waiting (hsound.waiting _ (mem_of_lookup hp)) _

end Client

namespace Document

def nothing : Typedef := ⟨"Nothing", .void⟩

def quiet : Typedef := ⟨"Quiet", .identifier "Nothing"⟩

/-- A service with a method that returns `void`, and one that returns it by another name. -/
def door : Document := ⟨[
  (.typedef nothing),
  (.typedef quiet),
  .structLike .exception ⟨"Stuck", [⟨"hinge", some 1, .string, .default, none, none⟩]⟩,
  .service ⟨"Door", none, [
    ⟨"open", .void, [],
      [⟨"stuck", some 1, .identifier "Stuck", .default, none, none⟩], false⟩,
    ⟨"shut", .identifier "Quiet", [],
      [⟨"stuck", some 1, .identifier "Stuck", .default, none, none⟩], false⟩]⟩]⟩

/-- The codecs of the document with the door. -/
def doorCodecs : Compiled :=
  match door.compile with
  | .ok c => c
  | .error _ => ⟨[], []⟩

theorem compile_door : door.compile = .ok doorCodecs := rfl

theorem quiet_hasForm : (FieldType.identifier "Quiet").HasForm (.merged [door]) .void :=
  .alias (d := quiet) rfl (.alias (d := nothing) rfl .void)

end Document

namespace Client

def openMethod : Method :=
  ⟨"open", "Door", "DoorOpenArgs", some "DoorOpenResult", .void, false, [⟨"stuck", 1, "Stuck"⟩]⟩

def shutMethod : Method :=
  ⟨"shut", "Door", "DoorShutArgs", some "DoorShutResult", .identifier "Quiet", false,
    [⟨"stuck", 1, "Stuck"⟩]⟩

/-- A client of the door that nothing was done with. -/
def ofDoor : Client :=
  ⟨Document.doorCodecs, ⟨"Door", none, [openMethod, shutMethod]⟩, {}, Link.empty, 0, [], []⟩

def bothCalled : List Action := [.call "open" (.empty ""), .call "shut" (.empty "")]

/-- A reply to the method with the name, whose result holds a byte that nobody asked for. -/
def doorAnswer (name : Bytes) (id : UInt8) : Bytes :=
  [0x80, 1, 0, 2, 0, 0, 0, 4] ++ name ++ [0, 0, 0, id, 3, 0, 9, 5, 0]

def openAnswer : Bytes := doorAnswer [0x6f, 0x70, 0x65, 0x6e] 1

def shutAnswer : Bytes := doorAnswer [0x73, 0x68, 0x75, 0x74] 2

def doorSegments : List Segment := [⟨⟨.byte, 9⟩, [5]⟩]

theorem doorSegments_unexceptional {m : Method} (h : m.exceptions = [⟨"stuck", 1, "Stuck"⟩]) :
    m.Unexceptional {} doorSegments := by
  refine List.forall_mem_singleton.mpr ⟨rfl, fun slot hslot => ?_⟩
  rw [h] at hslot
  cases List.mem_singleton.mp hslot
  rintro ⟨-, ⟨⟩⟩

theorem void_settled_door : ∃ opened shut,
    Client.ofService Document.doorCodecs "Door" {} = .ok ofDoor ∧
    (ofDoor.run bothCalled).receive {} openAnswer = .ok opened [] ∧
    opened.calls[0]? = some (.settled (.ok .void)) ∧
    (ofDoor.run bothCalled).receive {} shutAnswer = .ok shut [] ∧
    shut.calls[1]? = some (.settled shutMethod.endedEmpty) := by
  obtain ⟨t, ht, h⟩ := void_settled Document.compile_door
  have htable : SymbolTable.ofDocument Document.door = .ok (.merged [Document.door]) := rfl
  cases htable.symm.trans ht
  have hc : Client.ofService Document.doorCodecs "Door" {} = .ok ofDoor := rfl
  have hopen := doorSegments_unexceptional (m := openMethod) rfl
  have hshut := doorSegments_unexceptional (m := shutMethod) rfl
  obtain ⟨opened, hopened, -, hfirst⟩ := h "Door" {} ofDoor hc bothCalled 1 ⟨openMethod, 0⟩ rfl
    .void {} openAnswer [] doorSegments (by decide) rfl hopen
  obtain ⟨shut, hlast, -, hsecond⟩ := h "Door" {} ofDoor hc bothCalled 2 ⟨shutMethod, 1⟩ rfl
    Document.quiet_hasForm {} shutAnswer [] doorSegments (by decide) rfl hshut
  exact ⟨opened, shut, hc, hopened, hfirst, hlast, hsecond⟩

/-- A reply that nothing is wrong with, to a method that returns void by another name: the call
does not end with void. -/
theorem quiet_unsettled_door : Document.door.compile = .ok Document.doorCodecs ∧
    SymbolTable.ofDocument Document.door = .ok (.merged [Document.door]) ∧
    Client.ofService Document.doorCodecs "Door" {} = .ok ofDoor ∧
    (ofDoor.run bothCalled).pending.lookup 2 = some ⟨shutMethod, 1⟩ ∧
    shutMethod.returnType.HasForm (.merged [Document.door]) .void ∧
    MessageHeader.read {} shutAnswer = .ok ⟨"shut", .reply, 2⟩ (Segment.stream doorSegments) ∧
    shutMethod.Unexceptional {} doorSegments ∧
    ∃ next, (ofDoor.run bothCalled).receive {} shutAnswer = .ok next [] ∧
      next.calls[1]? = some (.settled (.error (.application
        ⟨.missingResult, "shut failed: unknown result"⟩))) ∧
      next.calls[1]? ≠ some (.settled (.ok .void)) := by
  refine ⟨rfl, rfl, rfl, rfl, Document.quiet_hasForm, rfl, doorSegments_unexceptional rfl, _, rfl,
    rfl, fun h => ?_⟩
  cases h

end Client

end Thrift
