-- What is encoded is decoded again, in its normal form and with nothing taken of what follows.
-- The two directions meet in the schema: encoding writes the bytes of the schema, and decoding
-- by the schema reads them back.
import Thrift.Proofs.Conformance
import Thrift.Proofs.DecodeRefines
import Thrift.Proofs.Normal
import Thrift.Proofs.ReadBack

namespace Thrift

/-! ## Limits -/

namespace Value

mutual

/-- No text, block or container inside of the value is larger than may be read. -/
def Within (c : WireConfig) : Value → Prop
  | string s => (Text.toBytes s).length ≤ c.maxStringSize
  | binary bs => bs.length ≤ c.maxStringSize
  | list items => items.length ≤ c.maxContainerSize ∧ ItemsWithin c items
  | set items => items.length ≤ c.maxContainerSize ∧ ItemsWithin c items
  | map entries => entries.length ≤ c.maxContainerSize ∧ EntriesWithin c entries
  | struct _ fields => FieldsWithin c fields
  | _ => True

def ItemsWithin (c : WireConfig) : List Value → Prop
  | [] => True
  | v :: vs => v.Within c ∧ ItemsWithin c vs

def EntriesWithin (c : WireConfig) : List (Value × Value) → Prop
  | [] => True
  | (k, v) :: es => k.Within c ∧ v.Within c ∧ EntriesWithin c es

def FieldsWithin (c : WireConfig) : List (String × Value) → Prop
  | [] => True
  | (_, v) :: rest => v.Within c ∧ FieldsWithin c rest

end

theorem itemsWithin_iff {c : WireConfig} {vs : List Value} :
    ItemsWithin c vs ↔ ∀ v ∈ vs, v.Within c := by
  induction vs with
  | nil => rw [ItemsWithin]; simp
  | cons v vs ih => rw [ItemsWithin, ih, List.forall_mem_cons]

theorem entriesWithin_iff {c : WireConfig} {es : List (Value × Value)} :
    EntriesWithin c es ↔ ∀ e ∈ es, e.1.Within c ∧ e.2.Within c := by
  induction es with
  | nil => rw [EntriesWithin]; simp
  | cons e es ih => rw [EntriesWithin, ih, List.forall_mem_cons, and_assoc]

theorem fieldsWithin_iff {c : WireConfig} {fields : List (String × Value)} :
    FieldsWithin c fields ↔ ∀ e ∈ fields, e.2.Within c := by
  induction fields with
  | nil => rw [FieldsWithin]; simp
  | cons e fields ih => rw [FieldsWithin, ih, List.forall_mem_cons]

end Value

theorem StructValue.within_of_held {c : WireConfig} {v : StructValue} {field : String} {w : Value}
    (h : v.toValue.Within c) (hw : v.held? field = some w) : w.Within c := by
  rw [toValue, Value.Within, Value.fieldsWithin_iff] at h
  exact h (field, w) (mem_of_held hw)

/-! ## Values -/

open Reading (Reads)

theorem Machine.readScalar_reads {c : WireConfig} {kind : ScalarKind} {v : Value}
    (h : kind.Fits v) (hc : v.Within c) : Reads (readScalar c kind) v.scalarBytes v := by
  cases kind <;> cases v <;> try exact h.elim
  case bool.bool b => exact (Reading.bool_reads b).map _
  case byte.byte n => exact (Reading.byte_reads n).map _
  case i16.i16 n => exact (Reading.i16_reads n).map _
  case i32.i32 n => exact (Reading.i32_reads n).map _
  case i64.i64 n => exact (Reading.i64_reads n).map _
  case double.double x => exact (Reading.double_reads x).map _
  case string.string s =>
    rw [Value.Within] at hc
    exact (Reading.string_reads h hc).map _
  case binary.binary bs =>
    rw [Value.Within] at hc
    exact (Reading.binary_reads h hc).map _

namespace Form

theorem readItems_reads {s : Schema} {e : Form} {item : Reading Value} {vs : List Value}
    (h : ∀ v ∈ vs, Reads item (s.valueBytes e v) (s.normalValue e v)) :
    Reads (readItems item vs.length) (s.itemBytes e vs) (s.normalItems e vs) := by
  induction vs with
  | nil =>
    rw [Schema.itemBytes, Schema.normalItems]
    exact .pure []
  | cons v vs ih =>
    rw [Schema.itemBytes, Schema.normalItems]
    obtain ⟨hv, hvs⟩ := List.forall_mem_cons.mp h
    exact hv.bind ((ih hvs).map _)

theorem readEntries_reads {s : Schema} {k e : Form} {key item : Reading Value}
    {es : List (Value × Value)}
    (h : ∀ entry ∈ es, Reads key (s.valueBytes k entry.1) (s.normalValue k entry.1) ∧
      Reads item (s.valueBytes e entry.2) (s.normalValue e entry.2)) :
    Reads (readEntries key item es.length) (s.entryBytes k e es) (s.normalEntries k e es) := by
  induction es with
  | nil =>
    rw [Schema.entryBytes, Schema.normalEntries]
    exact .pure []
  | cons entry es ih =>
    obtain ⟨k', v⟩ := entry
    rw [Schema.entryBytes, Schema.normalEntries, List.append_assoc]
    obtain ⟨⟨hk, hv⟩, hes⟩ := List.forall_mem_cons.mp h
    exact hk.bind (hv.bind ((ih hes).map _))

/-- A value that fits is read back from its bytes, when structs inside of it are. -/
theorem read_reads {s : Schema} {c : WireConfig} {nested : String → Reading StructValue}
    {fits : String → StructValue → Prop}
    (h : ∀ name v, fits name v → v.toValue.Within c →
      Reads (nested name) (s.bytes name v) (s.normal name v))
    {form : Form} {v : Value} (hv : form.Fits fits v) (hc : v.Within c) :
    Reads (form.read c nested) (s.valueBytes form v) (s.normalValue form v) := by
  induction form generalizing v with
  | scalar kind =>
    rw [Schema.valueBytes, Schema.normalValue]
    exact Machine.readScalar_reads hv hc
  | struct name =>
    obtain ⟨inner, hinner, hfits⟩ := hv
    cases v with
    | struct n fields =>
      cases hinner
      have hread := (h name ⟨n, fields⟩ hfits hc).map StructValue.toValue
      rw [← s.normalValue_struct] at hread
      exact hread
    | _ => cases hinner
  | list element ih =>
    obtain ⟨items, rfl, hlength, hitems⟩ := hv
    rw [Value.Within, Value.itemsWithin_iff] at hc
    rw [Schema.valueBytes, Schema.normalValue]
    exact (Reading.listHeader_reads _ hlength hc.1).bind
      ((readItems_reads fun v hv => ih (hitems v hv) (hc.2 v hv)).map _)
  | set element ih =>
    obtain ⟨items, rfl, hlength, hitems⟩ := hv
    rw [Value.Within, Value.itemsWithin_iff] at hc
    rw [Schema.valueBytes, Schema.normalValue]
    exact (Reading.setHeader_reads _ hlength hc.1).bind
      ((readItems_reads fun v hv => ih (hitems v hv) (hc.2 v hv)).map _)
  | map key value ihk ihv =>
    obtain ⟨entries, rfl, hlength, hentries⟩ := hv
    rw [Value.Within, Value.entriesWithin_iff] at hc
    rw [Schema.valueBytes, Schema.normalValue]
    exact (Reading.mapHeader_reads _ _ hlength hc.1).bind
      ((readEntries_reads fun e he => ⟨ihk (hentries e he).1 (hc.2 e he).1,
        ihv (hentries e he).2 (hc.2 e he).2⟩).map _)
  | void =>
    rw [Schema.valueBytes, Schema.normalValue]
    exact .pure Value.void

end Form

/-! ## Records -/

namespace Record

/-- What the members of a record must be like for its fields to be told apart on the wire and in
an instance, and for the members of a union to be counted alike on both ends. -/
structure Readable (r : Record) : Prop where
  ids_nodup : (r.members.map (·.id)).Nodup
  names_nodup : (r.members.map (·.name)).Nodup
  union_sent : r.kind = .union → ∀ m ∈ r.members, m.isVoid = false

/-- What is found when the members that an instance holds are read in order. -/
def found (s : Schema) (v : StructValue) : List Member → List (String × Value) →
    List (String × Value)
  | [], before => before
  | m :: ms, before =>
    match s.normalMember m v.fields with
    | some w => found s v ms ((m.name, w) :: before)
    | none => found s v ms before

theorem lookup_found_of_not_mem {s : Schema} {v : StructValue} {ms : List Member} {name : String}
    (h : name ∉ ms.map (·.name)) (before : List (String × Value)) :
    (found s v ms before).lookup name = before.lookup name := by
  induction ms generalizing before with
  | nil => rfl
  | cons m ms ih =>
    rw [List.map_cons, List.mem_cons, not_or] at h
    rw [found]
    split
    · rw [ih h.2, lookup_cons_ne h.1]
    · exact ih h.2 before

theorem lookup_found {s : Schema} {v : StructValue} {ms : List Member}
    (h : (ms.map (·.name)).Nodup) {m : Member} (hm : m ∈ ms) {before : List (String × Value)}
    (hbefore : before.lookup m.name = none) :
    (found s v ms before).lookup m.name = s.normalMember m v.fields := by
  induction ms generalizing before with
  | nil => cases hm
  | cons m' ms ih =>
    obtain ⟨hnew, hms⟩ := List.nodup_cons.mp h
    rw [found]
    rcases List.mem_cons.mp hm with rfl | hm
    · split
      · rename_i w hw
        rw [lookup_found_of_not_mem hnew, lookup_cons_self, hw]
      · rename_i hw
        rw [lookup_found_of_not_mem hnew, hbefore, hw]
    · have hne : m.name ≠ m'.name := fun heq => hnew (List.mem_map.mpr ⟨m, hm, heq⟩)
      split
      · exact ih hms hm ((lookup_cons_ne hne _ _).trans hbefore)
      · exact ih hms hm hbefore

/-- The bytes of a member are read as what the member holds. -/
theorem readField_reads {s : Schema} {c : WireConfig} {nested : String → Reading StructValue}
    {r : Record} (hids : (r.members.map (·.id)).Nodup) {m : Member} (hm : m ∈ r.sent) {w : Value}
    (h : Reads (m.form.read c nested) (s.valueBytes m.form w) (s.normalValue m.form w))
    (before : List (String × Value)) :
    Reads (r.readField c nested ⟨m.form.wireType, m.id⟩ before) (s.valueBytes m.form w)
      ((m.name, s.normalValue m.form w) :: before) := by
  obtain ⟨hmem, hvoid⟩ := List.mem_filter.mp hm
  rw [readField, find?_of_nodup hids hmem]
  dsimp only
  rw [Member.readValue, if_pos rfl, if_neg (by simpa using hvoid)]
  exact h.map _

/-- The bytes of members, up to the end of the struct, are read as what the members hold. -/
theorem fields_reads {s : Schema} {c : WireConfig} {nested : String → Reading StructValue}
    (ht : ∀ name, Reading.Takes (nested name)) {r : Record} (hids : (r.members.map (·.id)).Nodup)
    {v : StructValue} {ms : List Member} (hms : ∀ m ∈ ms, m ∈ r.sent)
    (h : ∀ m ∈ ms, ∀ w, v.held? m.name = some w →
      Reads (m.form.read c nested) (s.valueBytes m.form w) (s.normalValue m.form w))
    (before : List (String × Value)) :
    Reads (Reading.fields (r.readField c nested) before)
      ((ms.flatMap fun m => s.memberBytes m v.fields) ++ [WireType.stop.code])
      (found s v ms before) := by
  induction ms generalizing before with
  | nil =>
    rw [Reading.fields_eq (readField_takes ht r)]
    exact Reading.fieldStop_reads.bind (.pure before)
  | cons m ms ih =>
    obtain ⟨hm, hrest⟩ := List.forall_mem_cons.mp hms
    obtain ⟨hvalue, hvalues⟩ := List.forall_mem_cons.mp h
    rw [List.flatMap_cons, Schema.memberBytes_eq, found, Schema.normalMember_eq]
    rcases hw : v.held? m.name with _ | w
    · exact ih hrest hvalues before
    · have hstop := m.form.wireType_ne_stop
      rw [Schema.heldBytes, List.append_assoc, List.append_assoc,
        Reading.fields_eq (readField_takes ht r)]
      refine (Reading.fieldHeader_reads hstop m.id).bind ?_
      rw [if_neg hstop]
      exact (readField_reads hids hm (hvalue w hw) before).bind (ih hrest hvalues _)

/-- What an instance must have to be read back: of the members that are sent, those that are
required, one of a union, and values of their forms. -/
structure Sends (nested : String → StructValue → Prop) (r : Record) (v : StructValue) : Prop where
  required_set : ∀ m ∈ r.sent, m.required = true → (v.held? m.name).isSome
  single : r.kind = .union → r.sent.countP (fun m => (v.held? m.name).isSome) = 1
  shaped : ∀ m ∈ r.sent, ∀ w, v.held? m.name = some w → m.form.Fits nested w

/-- Nothing is missing and nothing is too many in what is found of an instance that is sent, so
that its normal form is made of it. -/
theorem finish_found {s : Schema} {nested : String → StructValue → Prop} {r : Record}
    (hnames : (r.members.map (·.name)).Nodup) (hs : s.record? r.name = some r) {v : StructValue}
    (h : r.Sends nested v) : r.finish (found s v r.sent []) = .ok (s.normal r.name v) := by
  have hfound : ∀ m ∈ r.sent,
      (found s v r.sent []).lookup m.name = s.normalMember m v.fields :=
    fun m hm => lookup_found (sent_names_nodup hnames) hm rfl
  have hset : ∀ m ∈ r.sent,
      ((found s v r.sent []).lookup m.name).isSome = (v.held? m.name).isSome := by
    intro m hm
    rw [hfound m hm, s.normalMember_eq, Option.isSome_map]
  apply finish_eq_ok_iff.mpr
  refine ⟨fun m hm hrequired => ?_, fun hkind => ?_, ?_⟩
  · rw [hset m hm]
    exact h.required_set m hm hrequired
  · rw [List.countP_congr fun m hm => by rw [hset m hm]]
    exact h.single hkind
  · rw [Schema.normal, hs]
    dsimp only
    rw [collect_congr fun m hm => by rw [hfound m hm]]

/-- An instance that conforms is sent when no member of a union is void. -/
theorem Conforms.sends {nested nested' : String → StructValue → Prop} {r : Record}
    {v : StructValue} (hr : r.Readable) (hn : ∀ name v, nested name v → nested' name v)
    (h : r.Conforms nested v) : r.Sends nested' v := by
  refine ⟨fun m hm hrequired => ?_, fun hkind => ?_, fun m hm w hw => ?_⟩
  · exact h.required_set m (List.mem_of_mem_filter hm) hrequired
  · have hsent : r.sent = r.members :=
      List.filter_eq_self.mpr fun m hm => by rw [hr.union_sent hkind m hm, Bool.not_false]
    rw [hsent]
    exact h.single hkind
  · exact (h.shaped m hm w hw).mono hn

end Record

/-! ## Structs -/

namespace Schema

/-- The instance can be read back as the struct of a name with structs nested less deep than a
number. -/
def SendsWithin (s : Schema) : Nat → String → StructValue → Prop
  | 0, _, _ => False
  | levels + 1, name, v => ∃ r, s.record? name = some r ∧ r.Sends (s.SendsWithin levels) v

theorem ConformsWithin.sends {s : Schema} (hs : ∀ r ∈ s.records, r.Readable) {levels : Nat}
    {name : String} {v : StructValue} (h : s.ConformsWithin levels name v) :
    s.SendsWithin levels name v := by
  induction levels generalizing name v with
  | zero => exact h
  | succ levels ih =>
    obtain ⟨r, hr, hconforms⟩ := h
    exact ⟨r, hr, hconforms.sends (hs r (mem_of_record? hr)) fun _ _ => ih⟩

/-- An instance that is sent is read back in its normal form. -/
theorem readWithin_reads_sent {s : Schema} (hids : ∀ r ∈ s.records, (r.members.map (·.id)).Nodup)
    (hnames : ∀ r ∈ s.records, (r.members.map (·.name)).Nodup) {c : WireConfig} {levels : Nat}
    {name : String} {v : StructValue} (h : s.SendsWithin levels name v) (hc : v.toValue.Within c) :
    Reads (s.readWithin Record.finish c levels name) (s.bytes name v) (s.normal name v) := by
  induction levels generalizing name v with
  | zero => exact h.elim
  | succ levels ih =>
    obtain ⟨r, hr, hsends⟩ := h
    have hname := name_of_record? hr
    subst hname
    have hmem := mem_of_record? hr
    rw [readWithin, hr, bytes_eq hr]
    dsimp only
    have hfields := Record.fields_reads (s := s) (v := v)
      (s.readWithin_takes Record.finish c levels) (hids r hmem) (fun _ hm => hm)
      (fun m hm w hw => Form.read_reads (fun _ _ => ih) (hsends.shaped m hm w hw)
        (StructValue.within_of_held hc hw)) []
    intro rest
    exact Record.read_eq_ok_iff.mpr
      ⟨_, hfields rest, Record.finish_found (hnames r hmem) hr hsends⟩

/-- An instance that conforms is read back in its normal form. -/
theorem readWithin_reads {s : Schema} (hs : ∀ r ∈ s.records, r.Readable)
    {c : WireConfig} {levels : Nat} {name : String} {v : StructValue}
    (h : s.ConformsWithin levels name v) (hc : v.toValue.Within c) :
    Reads (s.readWithin Record.finish c levels name) (s.bytes name v) (s.normal name v) :=
  readWithin_reads_sent (fun r hr => (hs r hr).ids_nodup) (fun r hr => (hs r hr).names_nodup)
    (h.sends hs) hc

end Schema

/-! ## Documents -/

/-- No union that is sent has a field of a type that opens to void. -/
def Document.UnionsSent (d : Document) : Prop :=
  ∀ t, SymbolTable.ofDocument d = .ok t → ∀ carrier ∈ d.carriers, carrier.1 = .union →
    ∀ f ∈ carrier.2.fields, f.type.form t ≠ .ok .void

theorem Document.sent_of_schema {d : Document} {s : Schema} (h : d.schema = .ok s)
    (hd : d.UnionsSent) :
    ∀ r ∈ s.records, r.kind = .union → ∀ m ∈ r.members, m.isVoid = false := by
  obtain ⟨t, ht, hrs⟩ := schema_eq_ok_iff.mp h
  intro r hr hkind m hm
  obtain ⟨carrier, hcarrier, hdef⟩ := Steps.forall₂_mem_right (Steps.mapM_eq_ok_iff.mp hrs) hr
  obtain ⟨ms, hms, hdef⟩ := Steps.except_bind_eq_ok_iff.mp hdef
  cases hdef
  obtain ⟨f, hf, hfield⟩ := Steps.forall₂_mem_right (Steps.mapM_eq_ok_iff.mp hms) hm
  refine beq_false_of_ne fun hvoid => hd t ht carrier hcarrier hkind f hf ?_
  rw [← hvoid]
  exact Member.form_of_ofField hfield

/-- The records of a document are readable when its names differ and its unions are sent. -/
theorem Document.readable_of_compile {d : Document} {c : Compiled} {s : Schema}
    (hs : d.schema = .ok s) (hrealizes : c.RealizesSchema s) (hd : d.NamesDistinct)
    (hu : d.UnionsSent) : ∀ r ∈ s.records, r.Readable := by
  intro r hr
  exact ⟨hrealizes.ids_nodup r hr, Document.names_of_schema hs hd r hr,
    Document.sent_of_schema hs hu r hr⟩

/-- Whatever follows the bytes of an instance, decoding gives the normal form of the instance and
leaves what follows. -/
theorem Machine.decode_encodeAs {d : Document} {c : Compiled} (hc : d.compile = .ok c)
    (hd : d.NamesDistinct) (hu : d.UnionsSent) :
    ∃ s, d.schema = .ok s ∧ ∀ (config : WireConfig) (name : String) (v : StructValue)
      (rest : Bytes), v.toValue.Within config → (encodeAs c config name v).outcome = .ok () →
        decode c config name ((encodeAs c config name v).bytes ++ rest) =
          .ok (s.normal name v) rest := by
  obtain ⟨s, hs, hrealizes⟩ := Compiled.realizes_of_compile hc
  refine ⟨s, hs, fun config name v rest hwithin h => ?_⟩
  rw [encodeAs_eq_write hrealizes] at h ⊢
  have hconforms := (s.writeWithin_succeeds_iff _ _ name v).mp h
  have hbytes := Schema.writeWithin_bytes h
  rw [decode_eq_read hs hrealizes hd, Schema.read, Schema.write, hbytes]
  exact Schema.readWithin_reads (Document.readable_of_compile hs hrealizes hd hu) hconforms
    hwithin rest

theorem Document.shelf_unionsSent : shelf.UnionsSent := by
  rintro t - carrier hcarrier hkind
  cases hcarrier with
  | head => cases hkind
  | tail _ h => cases h

/-- A shelf with two sizes and no room. -/
def Document.shelfValue : StructValue :=
  ⟨"Shelf", [("label", .string "top"), ("sizes", .list [.i32 3, .i32 5])]⟩

theorem Machine.decode_encodeAs_shelf : ∃ c, Document.shelf.compile = .ok c ∧
    Document.shelf.NamesDistinct ∧ Document.shelf.UnionsSent ∧
    (encodeAs c {} "Shelf" Document.shelfValue).outcome = .ok () ∧
    ∀ rest, decode c {} "Shelf" ((encodeAs c {} "Shelf" Document.shelfValue).bytes ++ rest) =
      .ok (Document.shelfSchema.normal "Shelf" Document.shelfValue) rest := by
  have hwithin : Document.shelfValue.toValue.Within {} := by
    simp only [Document.shelfValue, StructValue.toValue, Value.Within, Value.FieldsWithin,
      Value.ItemsWithin]
    decide
  obtain ⟨s, hs, h⟩ :=
    decode_encodeAs (d := Document.shelf) rfl Document.shelf_namesDistinct
      Document.shelf_unionsSent
  cases Document.schema_shelf.symm.trans hs
  exact ⟨_, rfl, Document.shelf_namesDistinct, Document.shelf_unionsSent, rfl,
    fun rest => h {} "Shelf" Document.shelfValue rest hwithin rfl⟩

end Thrift
