-- Results on the wire. What a handler returns or declares travels in the result struct of its
-- method, and the one who called finds it there again in its normal form.
import Thrift.Proofs.Answers
import Thrift.Proofs.Pending
import Thrift.Proofs.RoundTrip

namespace Thrift

open Reading (Reads)

/-! ## Structs across the wire -/

/-- Structs that conform are read back, wherever as many structs may be nested. -/
def Compiled.ReadsBack (c : Compiled) (s : Schema) : Prop :=
  ∀ (config : WireConfig) (levels : Nat) (name : String) (v : StructValue),
    levels ≤ config.maxDepth → s.ConformsWithin levels name v → v.toValue.Within config →
      Reads (Machine.decode c config name) (s.bytes name v) (s.normal name v)

theorem Document.readsBack_of_compile {d : Document} {c : Compiled} {s : Schema}
    (hs : d.schema = .ok s) (hrealizes : c.RealizesSchema s) (hd : d.NamesDistinct)
    (hu : d.UnionsSent) : c.ReadsBack s := by
  intro config levels name v hdepth hconforms hwithin
  have hreadable := Document.readable_of_compile hs hrealizes hd hu
  rw [Machine.decode_eq_read hs hrealizes hd]
  exact Schema.readWithin_reads hreadable (hconforms.mono hdepth) hwithin

/-! ## Result structs -/

/-- A two-way method returns void or has a value to return: no type but void itself opens to
void. -/
def Document.ReturnsPlain (d : Document) : Prop :=
  ∀ t, SymbolTable.ofDocument d = .ok t → ∀ service ∈ d.services, ∀ f ∈ service.functions,
    f.returnType = .void ∨ f.returnType.form t ≠ .ok .void

/-- The result struct of a two-way method and the form of what the method returns. -/
structure Method.HasResult (s : Schema) (t : SymbolTable) (m : Method) (struct : String)
    (form : Form) : Prop where
  struct_eq : m.resultStruct = some struct
  form_eq : m.returnType.form t = .ok form
  record_eq : s.record? struct = some (m.resultRecord struct form)
  names_nodup : ((m.resultRecord struct form).members.map (·.name)).Nodup
  void_iff : form = .void ↔ m.returnsVoid = true

theorem Service.Declares.hasResult {d : Document} {c : Compiled} {t : SymbolTable} {s : Schema}
    {m : Method} (hm : Declares d t m) (hc : d.compile = .ok c)
    (ht : SymbolTable.ofDocument d = .ok t) (hs : d.schema = .ok s)
    (hrealizes : c.RealizesSchema s) (hd : d.NamesDistinct) (hr : d.ReturnsPlain)
    (htwo : m.oneway = false) : ∃ struct form, m.HasResult s t struct form := by
  obtain ⟨struct, form, hstruct, hform, hrecord⟩ := hm.result hc ht hs hrealizes htwo
  have hnames := Document.names_of_schema hs hd _ (Schema.mem_of_record? hrecord)
  refine ⟨struct, form, hstruct, hform, hrecord, hnames, ?_⟩
  obtain ⟨service, hservice, f, hf, hmethod⟩ := hm
  obtain ⟨slots, -, hmethod⟩ := Steps.except_bind_eq_ok_iff.mp hmethod
  cases hmethod
  have hplain := hr t ht service hservice f hf
  change f.returnType.form t = .ok form at hform
  change form = .void ↔ (f.returnType == .void) = true
  rw [beq_iff_eq]
  constructor
  · rintro rfl
    exact hplain.resolve_right fun hne => hne hform
  · intro hvoid
    rw [hvoid] at hform
    cases hform
    rfl

/-! ## Instances with one field -/

namespace StructValue

variable {name field : String} {v : Value}

theorem held?_empty (name field : String) : (⟨name, []⟩ : StructValue).held? field = none := rfl

theorem held?_single (hv : v.isVoid = false) (other : String) :
    (⟨name, [(field, v)]⟩ : StructValue).held? other = if other = field then some v else none := by
  unfold held? get?
  split
  · rename_i heq
    rw [heq, lookup_cons_self, Option.filter_some, hv]
    rfl
  · rename_i hne
    rw [lookup_cons_ne hne]
    rfl

end StructValue

/-! ## Outcomes -/

/-- How a call ends for the one who called, after what the handler did, when so many structs may
be nested inside of a result. A value is sent when it fits the type that the method returns, and
an exception when it is declared and conforms. -/
inductive Resolves (s : Schema) (t : SymbolTable) (levels : Nat) (m : Method) :
    HandlerOutcome → CallOutcome → Prop
  | void {v : Value} (hm : m.returnsVoid = true) : Resolves s t levels m (.returned v) (.ok .void)
  | value {v : Value} {form : Form} (hm : m.returnsVoid = false) (hv : v.isVoid = false)
      (hform : m.returnType.form t = .ok form) (hfits : form.Fits (s.ConformsWithin levels) v) :
      Resolves s t levels m (.returned v) (.ok (s.normalValue form v))
  | missing (hm : m.returnsVoid = false) : Resolves s t levels m (.returned .void)
      (.error (.application ⟨.missingResult, s!"{m.name} failed: unknown result"⟩))
  | unencodable {v : Value} {form : Form} {text : String} (hm : m.returnsVoid = false)
      (hv : v.isVoid = false) (hform : m.returnType.form t = .ok form)
      (hfits : ¬ form.Fits (s.ConformsWithin levels) v) :
      Resolves s t levels m (.returned v) (.error (.application (.unknown text)))
  | declared {e : StructValue} {slot : ExceptionSlot} (hslot : m.slot? e.name = some slot)
      (he : s.ConformsWithin levels e.name e) :
      Resolves s t levels m (.declared e) (.error (.declared (s.normal e.name e)))
  | refused {e : StructValue} {slot : ExceptionSlot} {text : String}
      (hslot : m.slot? e.name = some slot) (he : ¬ s.ConformsWithin levels e.name e) :
      Resolves s t levels m (.declared e) (.error (.application (.unknown text)))
  | undeclared {e : StructValue} (hslot : m.slot? e.name = none) :
      Resolves s t levels m (.declared e)
        (.error (.application (.unknown s!"{e.name} is not declared by {m.name}")))
  | failed {text : String} :
      Resolves s t levels m (.failed text) (.error (.application (.unknown text)))
  | panicked {text : Option String} :
      Resolves s t levels m (.panicked text)
        (.error (.application (.unknown (Processor.panicText text))))

namespace Client

theorem declaredIn_eq_none {result : StructValue} {slots : List ExceptionSlot}
    (h : ∀ slot ∈ slots, result.get? slot.field = none) : declaredIn result slots = none := by
  induction slots with
  | nil => rfl
  | cons slot slots ih =>
    obtain ⟨hslot, hslots⟩ := List.forall_mem_cons.mp h
    rw [declaredIn, hslot]
    exact ih hslots

/-- The exception in the one slot that is set is found. -/
theorem declaredIn_eq_some {result e : StructValue} {slots : List ExceptionSlot}
    {slot : ExceptionSlot} (hslot : slot ∈ slots) (he : result.get? slot.field = some e.toValue)
    (h : ∀ other, other ≠ slot.field → result.get? other = none) :
    declaredIn result slots = some e := by
  induction slots with
  | nil => cases hslot
  | cons first slots ih =>
    rw [declaredIn]
    by_cases hfield : first.field = slot.field
    · rw [hfield, he]
      rfl
    · rw [h _ hfield]
      rcases List.mem_cons.mp hslot with rfl | hslot
      · exact absurd rfl hfield
      · exact ih hslot

/-- A result with nothing in it is what a method without a value returns. -/
theorem outcomeOf_nothing {m : Method} {result : StructValue}
    (h : ∀ field, result.get? field = none) :
    outcomeOf m result = if m.returnsVoid then .ok .void
      else .error (.application ⟨.missingResult, s!"{m.name} failed: unknown result"⟩) := by
  rw [outcomeOf, h]
  dsimp only
  rw [declaredIn_eq_none fun slot _ => h slot.field]

end Client

/-! ## The fields of a result -/

namespace Method.HasResult

variable {s : Schema} {t : SymbolTable} {m : Method} {struct : String} {form : Form}
  {levels : Nat}

/-- Nothing in a result is required and nothing has a default. -/
theorem member_plain {member : Member} (h : member ∈ (m.resultRecord struct form).members) :
    member.required = false ∧ member.default = none := by
  rcases List.mem_cons.mp h with rfl | h
  · exact ⟨rfl, rfl⟩
  · obtain ⟨slot, -, rfl⟩ := List.mem_map.mp h
    exact ⟨rfl, rfl⟩

theorem success_mem : ⟨Service.successField, 0, form, false, none⟩ ∈
    (m.resultRecord struct form).members := List.mem_cons_self

theorem slot_mem {slot : ExceptionSlot} (h : slot ∈ m.exceptions) :
    slot.toMember ∈ (m.resultRecord struct form).members :=
  List.mem_cons_of_mem _ (List.mem_map_of_mem h)

/-- A result conforms when the values that it holds fit. -/
theorem conforms_iff (h : m.HasResult s t struct form) {v : StructValue} :
    s.ConformsWithin (levels + 1) struct v ↔ ∀ member ∈ (m.resultRecord struct form).sent,
      ∀ w, v.held? member.name = some w → member.form.Fits (s.ConformsWithin levels) w := by
  constructor
  · rintro ⟨r, hr, hconforms⟩
    cases h.record_eq.symm.trans hr
    exact hconforms.shaped
  · intro hshaped
    refine ⟨_, h.record_eq, fun member hmem hrequired => ?_, fun hkind => ?_, hshaped⟩
    · rw [(member_plain hmem).1] at hrequired
      cases hrequired
    · cases hkind

/-- A result in which nothing is set always conforms. -/
theorem conforms_nothing (h : m.HasResult s t struct form) :
    s.ConformsWithin (levels + 1) struct ⟨struct, []⟩ := by
  refine h.conforms_iff.mpr fun member _ w hw => ?_
  rw [StructValue.held?_empty] at hw
  cases hw

/-- A result with one member set conforms when the value of the member fits, or is not sent. -/
theorem conforms_single (h : m.HasResult s t struct form) {member : Member}
    (hmem : member ∈ (m.resultRecord struct form).members) {v : Value} (hv : v.isVoid = false) :
    s.ConformsWithin (levels + 1) struct ⟨struct, [(member.name, v)]⟩ ↔
      (member.isVoid = false → member.form.Fits (s.ConformsWithin levels) v) := by
  rw [h.conforms_iff]
  constructor
  · intro hshaped hsent
    refine hshaped member (List.mem_filter.mpr ⟨hmem, by rw [hsent]; rfl⟩) v ?_
    rw [StructValue.held?_single hv, if_pos rfl]
  · intro hfits other hother w hw
    obtain ⟨hothermem, hsent⟩ := List.mem_filter.mp hother
    rw [StructValue.held?_single hv] at hw
    split at hw
    · rename_i hname
      cases hw
      cases List.inj_on_of_nodup_map h.names_nodup hothermem hmem hname
      exact hfits (by simpa using hsent)
    · cases hw

/-- A field of a result in its normal form is the normal form of what the member holds. -/
theorem normal_get? (h : m.HasResult s t struct form) (v : StructValue) (field : String) :
    (s.normal struct v).get? field =
      ((m.resultRecord struct form).sent.find? (·.name == field)).bind fun member =>
        (v.held? member.name).map (s.normalValue member.form) := by
  rw [Schema.normal_get? h.record_eq h.names_nodup]
  refine Option.bind_congr fun member hmember => ?_
  have hmem := (List.mem_filter.mp (List.mem_of_find?_eq_some hmember)).1
  rw [(member_plain hmem).2, Option.or_none]

theorem normal_get?_nothing (h : m.HasResult s t struct form) (field : String) :
    (s.normal struct ⟨struct, []⟩).get? field = none := by
  rw [h.normal_get?]
  exact Option.bind_eq_none_iff.mpr fun member _ => rfl

/-- A member that is sent is found again in its normal form. -/
theorem normal_get?_self (h : m.HasResult s t struct form) {member : Member}
    (hmem : member ∈ (m.resultRecord struct form).members) (hsent : member.isVoid = false)
    {v : Value} (hv : v.isVoid = false) :
    (s.normal struct ⟨struct, [(member.name, v)]⟩).get? member.name =
      some (s.normalValue member.form v) := by
  have hmem' : member ∈ (m.resultRecord struct form).sent :=
    List.mem_filter.mpr ⟨hmem, by rw [hsent]; rfl⟩
  have hfound := find?_of_nodup (Record.sent_names_nodup h.names_nodup) hmem'
  rw [h.normal_get?, hfound, Option.bind_some, StructValue.held?_single hv, if_pos rfl,
    Option.map_some]

/-- No other field is found. -/
theorem normal_get?_other (h : m.HasResult s t struct form) {field other : String} {v : Value}
    (hv : v.isVoid = false) (hne : other ≠ field) :
    (s.normal struct ⟨struct, [(field, v)]⟩).get? other = none := by
  rw [h.normal_get?]
  refine Option.bind_eq_none_iff.mpr fun member hmember => ?_
  have hname : member.name = other := by simpa using List.find?_some hmember
  rw [StructValue.held?_single hv, hname, if_neg hne, Option.map_none]

/-- A returned value of a method that returns nothing is not sent. -/
theorem normal_get?_void (h : m.HasResult s t struct form) (hm : m.returnsVoid = true)
    {v : Value} (hv : v.isVoid = false) (field : String) :
    (s.normal struct ⟨struct, [(Service.successField, v)]⟩).get? field = none := by
  by_cases hfield : field = Service.successField
  · rw [h.normal_get?]
    refine Option.bind_eq_none_iff.mpr fun member hmember => ?_
    obtain ⟨hmem, hsent⟩ := List.mem_filter.mp (List.mem_of_find?_eq_some hmember)
    have hname : member.name = Service.successField := by
      rw [← hfield]
      simpa using List.find?_some hmember
    cases List.inj_on_of_nodup_map h.names_nodup hmem success_mem hname
    rw [Member.isVoid, h.void_iff.mpr hm] at hsent
    cases hsent
  · exact h.normal_get?_other hv hfield

/-! ## What the one who called finds -/

theorem isVoid_success (h : m.HasResult s t struct form) :
    (⟨Service.successField, 0, form, false, none⟩ : Member).isVoid = m.returnsVoid := by
  rw [Member.isVoid, Bool.eq_iff_iff, beq_iff_eq, h.void_iff]

theorem of_slot? {name : String} {slot : ExceptionSlot} (hslot : m.slot? name = some slot) :
    slot ∈ m.exceptions ∧ slot.exception = name := by
  have hname := List.find?_some hslot
  exact ⟨List.mem_of_find?_eq_some hslot, beq_iff_eq.mp hname⟩

theorem slot_ne_success (h : m.HasResult s t struct form) {slot : ExceptionSlot}
    (hslot : slot ∈ m.exceptions) : Service.successField ≠ slot.field := by
  intro heq
  refine (List.nodup_cons.mp h.names_nodup).1 (List.mem_map.mpr ⟨slot.toMember, ?_, heq.symm⟩)
  exact List.mem_map_of_mem hslot

variable {outcome : HandlerOutcome} {result : StructValue}

/-- The one who called finds in a result what the handler put there. -/
theorem resolves (h : m.HasResult s t struct form)
    (hc : Processor.Carries m struct outcome result)
    (hconforms : s.ConformsWithin (levels + 1) struct result) :
    Resolves s t levels m outcome (Client.outcomeOf m (s.normal struct result)) := by
  cases hc with
  | nothing =>
    rw [Client.outcomeOf_nothing h.normal_get?_nothing]
    rcases hm : m.returnsVoid with _ | _
    · exact .missing hm
    · exact .void hm
  | value hv =>
    rcases hm : m.returnsVoid with _ | _
    · have hsent := h.isVoid_success.trans hm
      have hfits := (h.conforms_single success_mem hv).mp hconforms hsent
      rw [Client.outcomeOf, h.normal_get?_self success_mem hsent hv]
      exact .value hm hv h.form_eq hfits
    · rw [Client.outcomeOf_nothing (h.normal_get?_void hm hv), hm]
      exact .void hm
  | @declared e slot hslot =>
    obtain ⟨hmem, hname⟩ := of_slot? hslot
    have he := (h.conforms_single (slot_mem hmem) rfl).mp hconforms rfl
    have hget := h.normal_get?_self (slot_mem hmem) rfl (v := e.toValue) rfl
    obtain ⟨inner, hinner, he⟩ := he
    cases hinner
    rw [ExceptionSlot.toMember] at hget
    dsimp only at hget
    rw [s.normalValue_struct, hname] at hget
    have hdeclared := Client.declaredIn_eq_some hmem hget fun other => h.normal_get?_other rfl
    rw [Client.outcomeOf, h.normal_get?_other rfl (h.slot_ne_success hmem)]
    dsimp only
    rw [hdeclared]
    rw [hname] at he
    exact .declared hslot he

/-- Where no result can be sent, the one who called is told of it. -/
theorem resolves_refused (h : m.HasResult s t struct form) {p : Processor} {config : WireConfig}
    {text : String} (hfails : p.Fails config m outcome text)
    (hno : ∀ result, Processor.Carries m struct outcome result →
      ¬ s.ConformsWithin (levels + 1) struct result) :
    Resolves s t levels m outcome (.error (.application (.unknown text))) := by
  cases hfails with
  | failed => exact .failed
  | panicked => exact .panicked
  | undeclared hslot => exact .undeclared hslot
  | @unencodable _ struct' result fault hstruct hresult hfault =>
    cases h.struct_eq.symm.trans hstruct
    have hnot := hno result hresult
    cases hresult with
    | nothing => exact absurd h.conforms_nothing hnot
    | value hv =>
      rw [h.conforms_single success_mem hv, h.isVoid_success, Classical.not_imp] at hnot
      exact .unencodable hnot.1 hv h.form_eq hnot.2
    | @declared e slot hslot =>
      obtain ⟨hmem, hname⟩ := of_slot? hslot
      refine .refused hslot fun he => hnot ?_
      rw [← hname] at he
      exact (h.conforms_single (slot_mem hmem) rfl).mpr fun _ => ⟨e, rfl, he⟩

/-! ## Bodies of answers -/

variable {d : Compiled} {config : WireConfig} {h' : MessageHeader}

/-- The body of a reply is read as the outcome that is in its result. -/
theorem reply_reads (h : m.HasResult s t struct form) (hback : d.ReadsBack s)
    (htype : h'.type = .reply) (hname : h'.name = m.name) (hdepth : levels ≤ config.maxDepth)
    (hconforms : s.ConformsWithin levels struct result) (hwithin : result.toValue.Within config) :
    Reads (Client.readBody d config m h') (s.bytes struct result)
      (Client.outcomeOf m (s.normal struct result)) := by
  rw [Client.readBody_reply htype hname h.struct_eq]
  exact (hback config levels struct result hdepth hconforms hwithin).map _

end Method.HasResult

theorem Client.readBody_reads_exception {d : Compiled} {config : WireConfig} {m : Method}
    {h : MessageHeader} {e : ApplicationException} (htype : h.type = .exception)
    (he : Text.Short e.message) (hlimit : (Text.toBytes e.message).length ≤ config.maxStringSize) :
    Reads (readBody d config m h) e.bytes (.error (.application e)) := by
  rw [readBody_exception htype]
  exact (ApplicationException.read_reads he hlimit).map _

end Thrift
