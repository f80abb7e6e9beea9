-- The methods of a compiled service. Each comes from a function that a service of the document
-- declares, and the structs of its calls have records of their own.
import Thrift.Proofs.Lookup
import Thrift.Proofs.Realized

namespace Thrift

/-! ## Tables of methods -/

namespace SymbolTable

theorem mem_of_find? {t : SymbolTable} {name : String} {definition : Definition}
    (h : t.find? name = some definition) : definition ∈ t.definitions :=
  List.mem_of_find?_eq_some h

theorem mem_of_lookup {t : SymbolTable} {name : String} {definition : Definition}
    (h : t.lookup name = some definition) : definition ∈ t.definitions := by
  rcases Option.or_eq_some_iff.mp h with hfound | ⟨-, hfound⟩
  · exact mem_of_find? hfound
  · exact mem_of_find? hfound

theorem mem_of_service {t : SymbolTable} {name : String} {s : Service}
    (h : t.service name = .ok s) : .service s ∈ t.definitions := by
  unfold service at h
  split at h
  · rename_i hlookup
    cases h
    exact mem_of_lookup hlookup
  · cases h

/-- The services in the table of a document are those that the document declares. -/
theorem service_mem_iff {d : Document} {t : SymbolTable} (h : ofDocument d = .ok t) {s : Service} :
    .service s ∈ t.definitions ↔ s ∈ d.services := by
  rw [definitions_of_document h]
  constructor
  · intro hs
    obtain ⟨statement, hstatement, hdef⟩ := List.mem_filterMap.mp hs
    refine List.mem_filterMap.mpr ⟨statement, hstatement, ?_⟩
    cases statement <;> cases hdef
    rfl
  · intro hs
    obtain ⟨statement, hstatement, hdef⟩ := List.mem_filterMap.mp hs
    refine List.mem_filterMap.mpr ⟨statement, hstatement, ?_⟩
    cases statement <;> cases hdef
    rfl

theorem mem_structLikes {d : Document} {t : SymbolTable} (h : ofDocument d = .ok t)
    {kind : StructKind} {struct : StructLike} (hs : .structLike kind struct ∈ t.definitions) :
    (kind, struct) ∈ d.structLikes := by
  rw [definitions_of_document h] at hs
  obtain ⟨statement, hstatement, hdef⟩ := List.mem_filterMap.mp hs
  refine List.mem_filterMap.mpr ⟨statement, hstatement, ?_⟩
  cases statement <;> cases hdef
  rfl

end SymbolTable

namespace Service

/-- The method comes from a function that a service of the document declares. -/
def Declares (d : Document) (t : SymbolTable) (m : Method) : Prop :=
  ∃ s ∈ d.services, ∃ f ∈ s.functions, methodOf t s f = .ok m

theorem mem_addMethod {m m' : Method} {ms : List Method} (h : m' ∈ addMethod m ms) :
    m' = m ∨ m' ∈ ms := by
  induction ms with
  | nil => exact .inl (List.mem_singleton.mp h)
  | cons n ns ih =>
    rw [addMethod] at h
    split at h
    · rcases List.mem_cons.mp h with rfl | h
      · exact .inl rfl
      · exact .inr (List.mem_cons_of_mem n h)
    · rcases List.mem_cons.mp h with rfl | h
      · exact .inr List.mem_cons_self
      · exact (ih h).imp id (List.mem_cons_of_mem n)

theorem addMethods_declared {d : Document} {t : SymbolTable} {s : Service} (hs : s ∈ d.services)
    {ms r : List Method} (hms : ∀ m ∈ ms, Declares d t m) (h : addMethods t ms s = .ok r) :
    ∀ m ∈ r, Declares d t m := by
  unfold addMethods at h
  refine Steps.foldlM_keeps (P := fun r => ∀ m ∈ r, Declares d t m) ?_ hms h
  intro f hf before after hbefore hstep m hm
  obtain ⟨new, hnew, hstep⟩ := Steps.except_bind_eq_ok_iff.mp hstep
  cases hstep
  rcases mem_addMethod hm with rfl | hm
  · exact ⟨s, hs, f, hf, hnew⟩
  · exact hbefore m hm

/-- A service stands in its line behind services of the table. -/
theorem lineage_declared {d : Document} {t : SymbolTable} (ht : SymbolTable.ofDocument d = .ok t)
    {origin : String} {budget : Nat} {s : Service} {chain line : List Service}
    (hs : ∀ s' ∈ s :: chain, s' ∈ d.services) (h : lineage t origin budget s chain = .ok line) :
    ∀ s' ∈ line, s' ∈ d.services := by
  induction budget generalizing s chain with
  | zero => cases h
  | succ budget ih =>
    rw [lineage] at h
    split at h
    · cases h
      exact hs
    · split at h
      · cases h
      · rename_i next hnext
        split at h
        · cases h
        · refine ih (List.forall_mem_cons.mpr ⟨?_, hs⟩) h
          exact (SymbolTable.service_mem_iff ht).mp (SymbolTable.mem_of_service hnext)

theorem codec_declared {d : Document} {t : SymbolTable} (ht : SymbolTable.ofDocument d = .ok t)
    {s : Service} (hs : s ∈ d.services) {codec : ServiceCodec} (h : s.codec t = .ok codec) :
    ∀ m ∈ codec.methods, Declares d t m := by
  unfold Service.codec at h
  obtain ⟨line, hline, h⟩ := Steps.except_bind_eq_ok_iff.mp h
  obtain ⟨methods, hmethods, h⟩ := Steps.except_bind_eq_ok_iff.mp h
  cases h
  have hdeclared := lineage_declared ht (List.forall_mem_singleton.mpr hs) hline
  refine Steps.foldlM_keeps (P := fun r => ∀ m ∈ r, Declares d t m) ?_ ?_ hmethods
  · exact fun s' hs' _ _ => addMethods_declared (hdeclared s' hs')
  · exact fun _ hm => absurd hm List.not_mem_nil

end Service

/-- Every method of a service in a compiled document is declared in the document. -/
theorem Document.declares_of_compile {d : Document} {c : Compiled} (h : d.compile = .ok c) :
    ∃ t, SymbolTable.ofDocument d = .ok t ∧ ∀ codec ∈ c.services, ∀ m ∈ codec.methods,
      Service.Declares d t m := by
  obtain ⟨t, ht, h⟩ := Document.compile_eq_ok_iff.mp h
  obtain ⟨-, -, hservices⟩ := Compiled.ofSymbols_eq_ok_iff.mp h
  refine ⟨t, ht, fun codec hcodec m hm => ?_⟩
  obtain ⟨s, hs, hof⟩ := Steps.forall₂_mem_right (Steps.mapM_eq_ok_iff.mp hservices) hcodec
  exact Service.codec_declared ht hs hof m hm

/-! ## Records of structs -/

/-- Every struct that is sent has its record under its name. -/
theorem Document.record_of_carrier {d : Document} {t : SymbolTable} {c : Compiled} {s : Schema}
    (h : d.compile = .ok c) (ht : SymbolTable.ofDocument d = .ok t) (hs : d.schema = .ok s)
    (hrealizes : c.RealizesSchema s) {carrier : StructKind × StructLike}
    (hcarrier : carrier ∈ d.carriers) :
    ∃ r, Record.ofDefinition t carrier = .ok r ∧ s.record? carrier.2.name = some r := by
  have hnames : (s.records.map (·.name)).Nodup := by
    have heq := Steps.map_eq_of_forall₂ hrealizes fun _ _ h => h.name_eq
    rw [← heq]
    exact Compiled.names_of_compile h
  obtain ⟨t', ht', hrs⟩ := Document.schema_eq_ok_iff.mp hs
  cases ht.symm.trans ht'
  obtain ⟨r, hr, hof⟩ := Steps.forall₂_mem_left (Steps.mapM_eq_ok_iff.mp hrs) hcarrier
  obtain ⟨ms, -, hname⟩ := Steps.except_bind_eq_ok_iff.mp hof
  refine ⟨r, hof, ?_⟩
  have hfound := find?_of_nodup hnames hr
  cases hname
  exact hfound

/-! ## Results -/

/-- The field of a declared exception as its values travel. -/
def ExceptionSlot.toMember (slot : ExceptionSlot) : Member :=
  ⟨slot.field, slot.id, .struct slot.exception, false, none⟩

/-- The record of a method's results: the returned value and the declared exceptions. -/
def Method.resultRecord (m : Method) (struct : String) (form : Form) : Record :=
  ⟨struct, .struct, ⟨Service.successField, 0, form, false, none⟩ ::
    m.exceptions.map ExceptionSlot.toMember⟩

namespace Service

/-- The type of a declared exception opens to the struct that it names. -/
theorem form_of_exceptionName {t : SymbolTable} {levels levels' : Nat} {type : FieldType}
    {name : String} {form : Form} (h : exceptionNameWithin t levels type = .ok name)
    (hform : type.formWithin t levels' = .ok form) : form = .struct name := by
  induction levels generalizing levels' type with
  | zero => cases h
  | succ levels ih =>
    cases levels' with
    | zero => cases hform
    | succ levels' =>
      cases type with
      | identifier n =>
        rw [exceptionNameWithin] at h
        rw [FieldType.formWithin, SymbolTable.shape] at hform
        rcases hr : t.resolveType n with cause | resolved
        · rw [hr] at h
          cases h
        · rw [hr] at h hform
          cases resolved with
          | structLike kind d =>
            cases h
            cases hform
            rfl
          | typedef d underlying => exact ih h hform
          | _ => cases h
      | _ => cases h

theorem exceptionSlot_toMember {t : SymbolTable} {struct struct' : String} {f : Field}
    {slot : ExceptionSlot} {m : Member} (h : exceptionSlot t struct f = .ok slot)
    (hm : Member.ofField t struct' { f with requiredness := .optional, default := none } = .ok m) :
    m = slot.toMember := by
  unfold exceptionSlot at h
  unfold Member.ofField at hm
  rcases hid : f.id with _ | id
  · rw [hid] at h
    cases h
  · rw [hid] at h hm
    obtain ⟨name, hname, h⟩ := Steps.except_bind_eq_ok_iff.mp h
    obtain ⟨default, hdefault, hm⟩ := Steps.except_bind_eq_ok_iff.mp hm
    obtain ⟨form, hform, hm⟩ := Steps.except_bind_eq_ok_iff.mp hm
    cases h
    cases hm
    cases hdefault
    cases form_of_exceptionName hname hform
    rfl

/-- A two-way method has a result struct, and its record is made of what the method returns. -/
theorem Declares.result {d : Document} {t : SymbolTable} {c : Compiled} {s : Schema} {m : Method}
    (h : Declares d t m) (hc : d.compile = .ok c) (ht : SymbolTable.ofDocument d = .ok t)
    (hs : d.schema = .ok s) (hrealizes : c.RealizesSchema s) (htwo : m.oneway = false) :
    ∃ struct form, m.resultStruct = some struct ∧ m.returnType.form t = .ok form ∧
      s.record? struct = some (m.resultRecord struct form) := by
  obtain ⟨service, hservice, f, hf, hmethod⟩ := h
  obtain ⟨slots, hslots, hmethod⟩ := Steps.except_bind_eq_ok_iff.mp hmethod
  cases hmethod
  change f.oneway = false at htwo
  have honeway : ¬ f.oneway = true := by
    rw [htwo]
    exact Bool.false_ne_true
  have hcarrier := carrier_mem hservice hf (resultStruct_mem service.name htwo)
  obtain ⟨r, hof, hr⟩ := Document.record_of_carrier hc ht hs hrealizes hcarrier
  obtain ⟨ms, hms, hof⟩ := Steps.except_bind_eq_ok_iff.mp hof
  cases hof
  have hmembers := Steps.mapM_eq_ok_iff.mp hms
  cases hmembers with
  | @cons _ success _ others hsuccess hthrows =>
    obtain ⟨default, hdefault, hsuccess⟩ := Steps.except_bind_eq_ok_iff.mp hsuccess
    obtain ⟨form, hform, hsuccess⟩ := Steps.except_bind_eq_ok_iff.mp hsuccess
    cases hdefault
    cases hsuccess
    have hothers : others = slots.map ExceptionSlot.toMember := by
      have hboth : List.Forall₂ (fun (slot : ExceptionSlot) m => m = slot.toMember) slots
          others := by
        refine Steps.forall₂_comp ?_ (Steps.mapM_eq_ok_iff.mp hslots).flip
          (List.forall₂_map_left_iff.mp hthrows)
        intro slot f m hslot hm
        exact exceptionSlot_toMember hslot hm
      have hmap := Steps.map_eq_of_forall₂ (f := ExceptionSlot.toMember) (g := fun m => m) hboth
        fun _ _ heq => heq.symm
      rw [hmap, List.map_id']
    rw [hothers] at hr
    exact ⟨resultName service.name f.name, form, if_neg honeway, hform, hr⟩

end Service

namespace Document

/-- A small document with a service: a method with a result and an exception, one without a
result, and a one-way method. -/
def library : Document := ⟨[
  .structLike .struct ⟨"Book", [⟨"title", some 1, .string, .required, none, none⟩]⟩,
  .structLike .exception ⟨"Missing", [⟨"title", some 1, .string, .default, none, none⟩]⟩,
  .service ⟨"Library", none, [
    ⟨"find", .identifier "Book", [⟨"like", some 1, .identifier "Book", .default, none, none⟩],
      [⟨"missing", some 1, .identifier "Missing", .default, none, none⟩], false⟩,
    ⟨"close", .void, [], [], false⟩,
    ⟨"note", .void, [⟨"text", some 1, .string, .default, none, none⟩], [], true⟩]⟩]⟩

/-- The codecs of the small document. -/
def libraryCodecs : Compiled :=
  match library.compile with
  | .ok d => d
  | .error _ => ⟨[], []⟩

theorem compile_library : library.compile = .ok libraryCodecs := rfl

/-- What the small document says about the wire. -/
def librarySchema : Schema :=
  match library.schema with
  | .ok s => s
  | .error _ => ⟨[]⟩

theorem schema_library : library.schema = .ok librarySchema := rfl

def findMethod : Method :=
  ⟨"find", "Library", "LibraryFindArgs", some "LibraryFindResult", .identifier "Book", false,
    [⟨"missing", 1, "Missing"⟩]⟩

def closeMethod : Method :=
  ⟨"close", "Library", "LibraryCloseArgs", some "LibraryCloseResult", .void, false, []⟩

def noteMethod : Method := ⟨"note", "Library", "LibraryNoteArgs", none, .void, true, []⟩

def libraryService : ServiceCodec := ⟨"Library", none, [findMethod, closeMethod, noteMethod]⟩

end Document

end Thrift
