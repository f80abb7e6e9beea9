-- Which instances can be encoded, and into which bytes. Conforming is judged on the instance and
-- the schema; the only limit that counts is how deep structs may be nested.
import Thrift.Proofs.EncodeRefines
import Thrift.Proofs.Payload

namespace Thrift

/-! ## Conforming -/

/-- The value is a scalar of exactly this kind, short enough to be sent. -/
def ScalarKind.Fits : ScalarKind → Value → Prop
  | .bool, .bool _ => True
  | .byte, .byte _ => True
  | .i16, .i16 _ => True
  | .i32, .i32 _ => True
  | .i64, .i64 _ => True
  | .double, .double _ => True
  | .string, .string s => (Text.toBytes s).length < sizeBound
  | .binary, .binary bs => bs.length < sizeBound
  | _, _ => False

/-- The value has the shape of the form. A struct may have any name of its own; `nested` says
whether it conforms as the struct of the form. -/
def Form.Fits (nested : String → StructValue → Prop) : Form → Value → Prop
  | scalar kind, v => kind.Fits v
  | struct name, v => ∃ inner, v.asStruct = some inner ∧ nested name inner
  | list element, v => ∃ items, v = .list items ∧ items.length < sizeBound ∧
      ∀ item ∈ items, element.Fits nested item
  | set element, v => ∃ items, v = .set items ∧ items.length < sizeBound ∧
      ∀ item ∈ items, element.Fits nested item
  | map key value, v => ∃ entries, v = .map entries ∧ entries.length < sizeBound ∧
      ∀ entry ∈ entries, key.Fits nested entry.1 ∧ value.Fits nested entry.2
  | void, _ => True

/-- What an instance must have to be sent as a record. -/
structure Record.Conforms (nested : String → StructValue → Prop) (r : Record)
    (v : StructValue) : Prop where
  required_set : ∀ m ∈ r.members, m.required → (v.held? m.name).isSome
  single : r.kind = .union → r.members.countP (fun m => (v.held? m.name).isSome) = 1
  shaped : ∀ m ∈ r.sent, ∀ w, v.held? m.name = some w → m.form.Fits nested w

namespace Schema

/-- The instance conforms to the struct of a name with structs nested less deep than a number. -/
def ConformsWithin (s : Schema) : Nat → String → StructValue → Prop
  | 0, _, _ => False
  | levels + 1, name, v =>
    ∃ r, s.record? name = some r ∧ r.Conforms (s.ConformsWithin levels) v

end Schema

namespace Form

/-- A property of values of forms that passes from a container to what it holds. -/
structure Hereditary (P : Form → Value → Prop) : Prop where
  list : ∀ element items, P (list element) (.list items) → ∀ item ∈ items, P element item
  set : ∀ element items, P (set element) (.set items) → ∀ item ∈ items, P element item
  map : ∀ key value entries, P (map key value) (.map entries) →
    ∀ entry ∈ entries, P key entry.1 ∧ P value entry.2

variable {nested nested' : String → StructValue → Prop}

/-- More is known of the structs inside of a value when something is known of the value that they
inherit. -/
theorem Fits.imp {P : Form → Value → Prop} (hP : Hereditary P)
    (h : ∀ name v, P (.struct name) v.toValue → nested name v → nested' name v) {form : Form}
    {v : Value} (hv : form.Fits nested v) (hp : P form v) : form.Fits nested' v := by
  induction form generalizing v with
  | scalar kind => exact hv
  | struct name =>
    obtain ⟨inner, hinner, hnested⟩ := hv
    cases v with
    | struct n fields =>
      cases hinner
      exact ⟨⟨n, fields⟩, rfl, h name ⟨n, fields⟩ hp hnested⟩
    | _ => cases hinner
  | list element ih =>
    obtain ⟨items, rfl, hlength, hitems⟩ := hv
    have hp := hP.list element items hp
    exact ⟨items, rfl, hlength, fun item hitem => ih (hitems item hitem) (hp item hitem)⟩
  | set element ih =>
    obtain ⟨items, rfl, hlength, hitems⟩ := hv
    have hp := hP.set element items hp
    exact ⟨items, rfl, hlength, fun item hitem => ih (hitems item hitem) (hp item hitem)⟩
  | map key value ihk ihv =>
    obtain ⟨entries, rfl, hlength, hentries⟩ := hv
    have hp := hP.map key value entries hp
    exact ⟨entries, rfl, hlength, fun e he =>
      ⟨ihk (hentries e he).1 (hp e he).1, ihv (hentries e he).2 (hp e he).2⟩⟩
  | void => trivial

theorem Fits.mono (h : ∀ name v, nested name v → nested' name v) {form : Form} {v : Value}
    (hv : form.Fits nested v) : form.Fits nested' v := by
  have hany : Hereditary fun _ _ => True :=
    ⟨fun _ _ _ _ _ => trivial, fun _ _ _ _ _ => trivial, fun _ _ _ _ _ _ => ⟨trivial, trivial⟩⟩
  exact hv.imp hany (fun name v _ => h name v) trivial

end Form

/-- What conforms at a depth conforms where structs may be nested deeper. -/
theorem Schema.ConformsWithin.mono {s : Schema} {levels levels' : Nat} (hl : levels ≤ levels')
    {name : String} {v : StructValue} (h : s.ConformsWithin levels name v) :
    s.ConformsWithin levels' name v := by
  induction levels generalizing levels' name v with
  | zero => exact h.elim
  | succ levels ih =>
    obtain ⟨levels', rfl⟩ := Nat.exists_eq_add_of_le' (Nat.le_trans (Nat.le_add_left 1 levels) hl)
    obtain ⟨r, hr, hconforms⟩ := h
    refine ⟨r, hr, hconforms.required_set, hconforms.single, fun m hm w hw => ?_⟩
    exact (hconforms.shaped m hm w hw).mono fun _ _ => ih (Nat.le_of_succ_le_succ hl)

/-! ## Sizes, blocks and headers -/

namespace Writing

theorem binary_succeeds_iff {bs : Bytes} :
    (binary bs).Succeeds ↔ bs.length < sizeBound := by
  unfold binary
  rw [succeeds_bind_iff, size_succeeds_iff]
  exact ⟨fun h => h.1, fun h => ⟨h, rfl⟩⟩

theorem size_bytes {n : Nat} (h : (size n).Succeeds) : (size n).bytes = sizeBytes n := by
  have hn := size_succeeds_iff.mp h
  rw [size, if_pos hn]
  exact bytes_ofNat hn

theorem binary_bytes {bs : Bytes} (h : (binary bs).Succeeds) :
    (binary bs).bytes = sizeBytes bs.length ++ bs := by
  unfold binary at h ⊢
  have hsize := (succeeds_bind_iff.mp h).1
  rw [bytes_bind hsize, size_bytes hsize]
  rfl

theorem elementsHeader_succeeds_iff {t : WireType} {n : Nat} :
    (elementsHeader t n).Succeeds ↔ n < sizeBound := by
  unfold elementsHeader
  rw [succeeds_bind_iff, size_succeeds_iff]
  exact ⟨fun h => h.2, fun h => ⟨rfl, h⟩⟩

theorem entriesHeader_succeeds_iff {k t : WireType} {n : Nat} :
    (entriesHeader k t n).Succeeds ↔ n < sizeBound := by
  unfold entriesHeader
  rw [succeeds_bind_iff, succeeds_bind_iff, size_succeeds_iff]
  exact ⟨fun h => h.2.2, fun h => ⟨rfl, rfl, h⟩⟩

theorem elementsHeader_bytes {t : WireType} {n : Nat} (h : n < sizeBound) :
    (elementsHeader t n).bytes = t.code :: sizeBytes n := by
  unfold elementsHeader
  rw [bytes_bind (wireType_succeeds t), size_bytes (size_succeeds_iff.mpr h)]
  rfl

theorem entriesHeader_bytes {k t : WireType} {n : Nat} (h : n < sizeBound) :
    (entriesHeader k t n).bytes = k.code :: t.code :: sizeBytes n := by
  unfold entriesHeader
  rw [bytes_bind (wireType_succeeds k),
    bytes_bind (wireType_succeeds t),
    size_bytes (size_succeeds_iff.mpr h)]
  rfl

end Writing

/-! ## Values -/

namespace Machine

open Writing (Succeeds)

theorem writeScalar_succeeds_iff {kind : ScalarKind} {v : Value} :
    (writeScalar kind v).Succeeds ↔ kind.Fits v := by
  cases kind <;> cases v <;>
    simp only [writeScalar, ScalarKind.Fits, Writing.string, Writing.binary_succeeds_iff, iff_false,
      iff_true]
  all_goals first | rfl | exact Writing.not_succeeds_stop _

theorem writeScalar_bytes {kind : ScalarKind} {v : Value} (h : (writeScalar kind v).Succeeds) :
    (writeScalar kind v).bytes = v.scalarBytes := by
  have hfits := writeScalar_succeeds_iff.mp h
  cases kind <;> cases v <;> try exact hfits.elim
  case bool.bool b => cases b <;> rfl
  case string.string s => exact Writing.binary_bytes h
  case binary.binary bs => exact Writing.binary_bytes h
  all_goals rfl

end Machine

namespace Form

open Writing (Succeeds)

theorem writeItems_succeeds_iff {item : Value → Writing Unit} {vs : List Value} :
    (writeItems item vs).Succeeds ↔ ∀ v ∈ vs, (item v).Succeeds := by
  induction vs with
  | nil => exact ⟨fun _ _ hv => absurd hv List.not_mem_nil, fun _ => rfl⟩
  | cons v vs ih =>
    rw [writeItems, Writing.succeeds_bind_iff, ih, List.forall_mem_cons]

theorem writeEntries_succeeds_iff {key value : Value → Writing Unit}
    {es : List (Value × Value)} :
    (writeEntries key value es).Succeeds ↔ ∀ e ∈ es, (key e.1).Succeeds ∧ (value e.2).Succeeds := by
  induction es with
  | nil => exact ⟨fun _ _ he => absurd he List.not_mem_nil, fun _ => rfl⟩
  | cons e es ih =>
    rw [writeEntries, Writing.succeeds_bind_iff, Writing.succeeds_bind_iff, ih,
      List.forall_mem_cons, and_assoc]

/-- Writing a value as one of a form succeeds exactly when the value fits. -/
theorem write_succeeds_iff {writing : Machine.Nested} {nested : String → StructValue → Prop}
    (h : ∀ name v, (writing name v).Succeeds ↔ nested name v) {form : Form} {v : Value} :
    (form.write writing v).Succeeds ↔ form.Fits nested v := by
  induction form generalizing v with
  | scalar kind => exact Machine.writeScalar_succeeds_iff
  | struct name =>
    rw [write, Machine.writeValue, Fits]
    rcases v.asStruct with _ | inner
    · refine iff_of_false (Writing.not_succeeds_stop _) ?_
      rintro ⟨_, he, -⟩
      cases he
    · simp only [h, Option.some.injEq, exists_eq_left']
  | list element ih =>
    cases v with
    | list items =>
      rw [write, Writing.succeeds_bind_iff, Writing.elementsHeader_succeeds_iff,
        writeItems_succeeds_iff]
      simp only [ih, Fits, Value.list.injEq, exists_eq_left']
    | _ =>
      refine iff_of_false (Writing.not_succeeds_stop _) ?_
      rintro ⟨_, he, -⟩
      cases he
  | set element ih =>
    cases v with
    | set items =>
      rw [write, Writing.succeeds_bind_iff, Writing.elementsHeader_succeeds_iff,
        writeItems_succeeds_iff]
      simp only [ih, Fits, Value.set.injEq, exists_eq_left']
    | _ =>
      refine iff_of_false (Writing.not_succeeds_stop _) ?_
      rintro ⟨_, he, -⟩
      cases he
  | map key value ihk ihv =>
    cases v with
    | map entries =>
      rw [write, Writing.succeeds_bind_iff, Writing.entriesHeader_succeeds_iff,
        writeEntries_succeeds_iff]
      simp only [ihk, ihv, Fits, Value.map.injEq, exists_eq_left']
    | _ =>
      refine iff_of_false (Writing.not_succeeds_stop _) ?_
      rintro ⟨_, he, -⟩
      cases he
  | void => exact ⟨fun _ => trivial, fun _ => rfl⟩

theorem writeItems_bytes {item : Value → Writing Unit} {s : Schema} {e : Form}
    (h : ∀ v, (item v).Succeeds → (item v).bytes = s.valueBytes e v) {vs : List Value}
    (hvs : (writeItems item vs).Succeeds) : (writeItems item vs).bytes = s.itemBytes e vs := by
  induction vs with
  | nil =>
    rw [Schema.itemBytes]
    rfl
  | cons v vs ih =>
    rw [writeItems] at hvs ⊢
    obtain ⟨hv, hrest⟩ := Writing.succeeds_bind_iff.mp hvs
    rw [Writing.bytes_bind hv, h v hv, ih hrest, Schema.itemBytes]

theorem writeEntries_bytes {key value : Value → Writing Unit} {s : Schema} {k e : Form}
    (hk : ∀ v, (key v).Succeeds → (key v).bytes = s.valueBytes k v)
    (h : ∀ v, (value v).Succeeds → (value v).bytes = s.valueBytes e v)
    {es : List (Value × Value)} (hes : (writeEntries key value es).Succeeds) :
    (writeEntries key value es).bytes = s.entryBytes k e es := by
  induction es with
  | nil =>
    rw [Schema.entryBytes]
    rfl
  | cons entry es ih =>
    obtain ⟨k', v⟩ := entry
    rw [writeEntries] at hes ⊢
    obtain ⟨hkey, hes⟩ := Writing.succeeds_bind_iff.mp hes
    obtain ⟨hv, hrest⟩ := Writing.succeeds_bind_iff.mp hes
    rw [Writing.bytes_bind hkey, Writing.bytes_bind hv, hk k' hkey, h v hv, ih hrest,
      Schema.entryBytes, List.append_assoc]

/-- The bytes of a value that was written as one of a form. -/
theorem write_bytes {writing : Machine.Nested} {s : Schema}
    (h : ∀ name v, (writing name v).Succeeds → (writing name v).bytes = s.bytes name v)
    {form : Form} {v : Value} (hv : (form.write writing v).Succeeds) :
    (form.write writing v).bytes = s.valueBytes form v := by
  induction form generalizing v with
  | scalar kind =>
    rw [Schema.valueBytes]
    exact Machine.writeScalar_bytes hv
  | struct name =>
    rw [write, Machine.writeValue] at hv ⊢
    cases v with
    | struct n fields => exact h name ⟨n, fields⟩ hv
    | _ => exact absurd hv (Writing.not_succeeds_stop _)
  | list element ih =>
    cases v with
    | list items =>
      rw [write] at hv ⊢
      obtain ⟨hhead, hitems⟩ := Writing.succeeds_bind_iff.mp hv
      rw [Writing.bytes_bind hhead,
        Writing.elementsHeader_bytes (Writing.elementsHeader_succeeds_iff.mp hhead),
        writeItems_bytes (fun v => ih) hitems, Schema.valueBytes]
    | _ => exact absurd hv (Writing.not_succeeds_stop _)
  | set element ih =>
    cases v with
    | set items =>
      rw [write] at hv ⊢
      obtain ⟨hhead, hitems⟩ := Writing.succeeds_bind_iff.mp hv
      rw [Writing.bytes_bind hhead,
        Writing.elementsHeader_bytes (Writing.elementsHeader_succeeds_iff.mp hhead),
        writeItems_bytes (fun v => ih) hitems, Schema.valueBytes]
    | _ => exact absurd hv (Writing.not_succeeds_stop _)
  | map key value ihk ihv =>
    cases v with
    | map entries =>
      rw [write] at hv ⊢
      obtain ⟨hhead, hentries⟩ := Writing.succeeds_bind_iff.mp hv
      rw [Writing.bytes_bind hhead,
        Writing.entriesHeader_bytes (Writing.entriesHeader_succeeds_iff.mp hhead),
        writeEntries_bytes (fun v => ihk) (fun v => ihv) hentries, Schema.valueBytes]
    | _ => exact absurd hv (Writing.not_succeeds_stop _)
  | void =>
    rw [Schema.valueBytes]
    rfl

end Form

/-! ## Records -/

namespace Record

open Writing (Succeeds)

theorem checkUnion_succeeds_iff {r : Record} {v : StructValue} :
    (r.checkUnion v).Succeeds ↔
      (r.kind = .union → r.members.countP (fun m => (v.held? m.name).isSome) = 1) := by
  unfold checkUnion
  dsimp only
  split
  · rename_i h
    exact ⟨fun hw => absurd hw (Writing.not_succeeds_fail _), fun hw => absurd (hw h.1) h.2⟩
  · rename_i h
    exact ⟨fun _ hkind => not_not.mp fun hne => h ⟨hkind, hne⟩, fun _ => rfl⟩

theorem checkUnion_bytes (r : Record) (v : StructValue) : (r.checkUnion v).bytes = [] := by
  unfold checkUnion
  dsimp only
  split <;> rfl

theorem checkSet_bytes (v : StructValue) (ms : List Member) : (checkSet v ms).bytes = [] := by
  induction ms with
  | nil => rfl
  | cons m ms ih =>
    rw [checkSet]
    split
    · exact ih
    · rfl

theorem checkSet_succeeds_iff {v : StructValue} {ms : List Member} :
    (checkSet v ms).Succeeds ↔ ∀ m ∈ ms, (v.held? m.name).isSome := by
  induction ms with
  | nil => exact ⟨fun _ _ hm => absurd hm List.not_mem_nil, fun _ => rfl⟩
  | cons m ms ih =>
    rw [checkSet, List.forall_mem_cons]
    split
    · rename_i hm
      exact ih.trans ⟨fun h => ⟨hm, h⟩, fun h => h.2⟩
    · rename_i hm
      exact ⟨fun h => absurd h (Writing.not_succeeds_fail _), fun h => absurd h.1 hm⟩

theorem writeMembers_succeeds_iff {writing : Machine.Nested}
    {nested : String → StructValue → Prop} (h : ∀ name v, (writing name v).Succeeds ↔ nested name v)
    {v : StructValue} {ms : List Member} :
    (writeMembers writing v ms).Succeeds ↔
      ∀ m ∈ ms, ∀ w, v.held? m.name = some w → m.form.Fits nested w := by
  induction ms with
  | nil => exact ⟨fun _ _ hm => absurd hm List.not_mem_nil, fun _ => rfl⟩
  | cons m ms ih =>
    rw [writeMembers, Writing.succeeds_bind_iff, ih, List.forall_mem_cons, Member.write]
    refine and_congr_left fun _ => ?_
    rcases v.held? m.name with _ | w
    · exact ⟨fun _ _ hw => absurd hw (Option.some_ne_none _).symm, fun _ => rfl⟩
    · dsimp only
      rw [Writing.succeeds_bind_iff, Form.write_succeeds_iff h]
      exact ⟨fun hw w' he => Option.some.inj he ▸ hw.2, fun hw => ⟨rfl, hw w rfl⟩⟩

/-- Writing an instance as a record succeeds exactly when it conforms. -/
theorem write_succeeds_iff {writing : Machine.Nested} {nested : String → StructValue → Prop}
    (h : ∀ name v, (writing name v).Succeeds ↔ nested name v) {r : Record} {v : StructValue} :
    (r.write writing v).Succeeds ↔ r.Conforms nested v := by
  rw [write, Writing.succeeds_bind_iff, Writing.succeeds_bind_iff, Writing.succeeds_bind_iff,
    checkUnion_succeeds_iff, checkSet_succeeds_iff, writeMembers_succeeds_iff h]
  simp only [List.mem_filter, and_imp]
  constructor
  · rintro ⟨hunion, hset, hshaped, -⟩
    exact ⟨hset, hunion, hshaped⟩
  · rintro ⟨hset, hunion, hshaped⟩
    exact ⟨hunion, hset, hshaped, rfl⟩

theorem writeMembers_bytes {writing : Machine.Nested} {s : Schema}
    (h : ∀ name v, (writing name v).Succeeds → (writing name v).bytes = s.bytes name v)
    {v : StructValue} {ms : List Member} (hms : (writeMembers writing v ms).Succeeds) :
    (writeMembers writing v ms).bytes = ms.flatMap fun m => s.memberBytes m v.fields := by
  induction ms with
  | nil => rfl
  | cons m ms ih =>
    rw [writeMembers] at hms ⊢
    obtain ⟨hm, hrest⟩ := Writing.succeeds_bind_iff.mp hms
    rw [Writing.bytes_bind hm, ih hrest, List.flatMap_cons, Schema.memberBytes_eq]
    congr 1
    rw [Member.write] at hm ⊢
    rcases hw : v.held? m.name with _ | w
    · rfl
    · rw [hw] at hm
      obtain ⟨hhead, hvalue⟩ := Writing.succeeds_bind_iff.mp hm
      exact (Writing.bytes_bind hhead _).trans (congrArg _ (Form.write_bytes h hvalue))

end Record

/-! ## Structs -/

namespace Schema

open Writing (Succeeds)

theorem writeWithin_succeeds_iff (s : Schema) (maxDepth levels : Nat) (name : String)
    (v : StructValue) :
    (s.writeWithin maxDepth levels name v).Succeeds ↔ s.ConformsWithin levels name v := by
  induction levels generalizing name v with
  | zero => exact ⟨fun h => absurd h (Writing.not_succeeds_fail _), fun h => h.elim⟩
  | succ levels ih =>
    rw [writeWithin, ConformsWithin]
    rcases s.record? name with _ | r
    · refine iff_of_false (Writing.not_succeeds_stop _) ?_
      rintro ⟨_, hr, -⟩
      cases hr
    · simp only [Option.some.injEq, exists_eq_left']
      exact Record.write_succeeds_iff ih

theorem writeWithin_bytes {s : Schema} {maxDepth levels : Nat} {name : String} {v : StructValue}
    (h : (s.writeWithin maxDepth levels name v).Succeeds) :
    (s.writeWithin maxDepth levels name v).bytes = s.bytes name v := by
  induction levels generalizing name v with
  | zero => exact absurd h (Writing.not_succeeds_fail _)
  | succ levels ih =>
    rw [writeWithin] at h ⊢
    rcases hr : s.record? name with _ | r
    · rw [hr] at h
      exact absurd h (Writing.not_succeeds_stop _)
    · rw [hr] at h
      dsimp only at h ⊢
      rw [Record.write] at h ⊢
      obtain ⟨hunion, h⟩ := Writing.succeeds_bind_iff.mp h
      obtain ⟨hset, h⟩ := Writing.succeeds_bind_iff.mp h
      obtain ⟨hmembers, hstop⟩ := Writing.succeeds_bind_iff.mp h
      rw [Writing.bytes_bind hunion, Writing.bytes_bind hset, Writing.bytes_bind hmembers,
        Record.writeMembers_bytes (fun _ _ => ih) hmembers, bytes_eq hr,
        Record.checkUnion_bytes, Record.checkSet_bytes, List.nil_append, List.nil_append]
      rfl

end Schema

/-! ## Documents -/

namespace Machine

/-- An instance can be encoded when it conforms to the schema. -/
theorem encodeAs_succeeds_iff {c : Compiled} {s : Schema} (h : c.RealizesSchema s)
    {config : WireConfig} {name : String} {v : StructValue} :
    (encodeAs c config name v).Succeeds ↔ s.ConformsWithin config.maxDepth name v := by
  rw [encodeAs_eq_write h]
  exact s.writeWithin_succeeds_iff _ _ name v

theorem encodeAs_bytes {c : Compiled} {s : Schema} (h : c.RealizesSchema s)
    {config : WireConfig} {name : String} {v : StructValue}
    (hv : (encodeAs c config name v).Succeeds) :
    (encodeAs c config name v).bytes = s.bytes name v := by
  rw [encodeAs_eq_write h] at hv ⊢
  exact Schema.writeWithin_bytes hv

/-- What is validated is what can be encoded. -/
theorem validateAs_eq_ok_iff {c : Compiled} {s : Schema} (h : c.RealizesSchema s)
    {config : WireConfig} {name : String} {v : StructValue} :
    validateAs c config.maxDepth name v = .ok () ↔ s.ConformsWithin config.maxDepth name v :=
  encodeAs_succeeds_iff h

end Machine

/-! ## Refinement -/

/-- Encoding by the codecs accepts exactly the instances that conform to the schema and writes the
bytes that the schema gives them. -/
structure Compiled.EncodesBy (c : Compiled) (s : Schema) : Prop where
  succeeds_iff : ∀ config name v, (Machine.encodeAs c config name v).outcome = .ok () ↔
    s.ConformsWithin config.maxDepth name v
  bytes_eq : ∀ config name v, (Machine.encodeAs c config name v).outcome = .ok () →
    (Machine.encodeAs c config name v).bytes = s.bytes name v
  /-- Under all limits, instances that are alike in what is sent have the same bytes. -/
  bytes_alike : ∀ config config' name v w, s.Alike (.struct name) v.toValue w.toValue →
    (Machine.encodeAs c config name v).outcome = .ok () →
    (Machine.encodeAs c config' name w).outcome = .ok () →
    (Machine.encodeAs c config name v).bytes = (Machine.encodeAs c config' name w).bytes

/-- A document that compiles encodes by its schema. -/
theorem Machine.encodeAs_refines {d : Document} {c : Compiled} (hc : d.compile = .ok c) :
    ∃ s, d.schema = .ok s ∧ c.EncodesBy s := by
  obtain ⟨s, hs, hrealizes⟩ := Compiled.realizes_of_compile hc
  have hbytes : ∀ config name v, (encodeAs c config name v).outcome = .ok () →
      (encodeAs c config name v).bytes = s.bytes name v := by
    intro config name v h
    rw [encodeAs_eq_write hrealizes] at h ⊢
    exact Schema.writeWithin_bytes h
  refine ⟨s, hs, fun config name v => ?_, hbytes, fun config config' name v w halike hv hw => ?_⟩
  · rw [encodeAs_eq_write hrealizes]
    exact s.writeWithin_succeeds_iff _ _ name v
  · rw [hbytes config name v hv, hbytes config' name w hw]
    exact Schema.valueBytes_eq_of_alike _ _ _ halike

/-- A shelf under another name, with a field that has no value and one that is not declared. -/
def Document.strayShelf : StructValue := ⟨"Other", [("label", .string "a"), ("room", .void),
  ("sizes", .list [.i32 5, .i32 6]), ("stray", .bool true)]⟩

theorem Machine.encodeAs_refines_shelf : ∃ c s, Document.shelf.compile = .ok c ∧
    Document.shelf.schema = .ok s ∧ s.ConformsWithin 1 "Shelf" Document.strayShelf ∧
    (encodeAs c { maxDepth := 1 } "Shelf" Document.strayShelf).outcome = .ok () ∧
    (encodeAs c { maxDepth := 1 } "Shelf" Document.strayShelf).bytes =
      s.bytes "Shelf" Document.strayShelf ∧
    s.bytes "Shelf" Document.strayShelf =
      [11, 0, 1, 0, 0, 0, 1, 97, 15, 0, 2, 8, 0, 0, 0, 2, 0, 0, 0, 5, 0, 0, 0, 6, 0] := by
  obtain ⟨s, hs, hencodes⟩ := encodeAs_refines (d := Document.shelf) rfl
  cases Document.schema_shelf.symm.trans hs
  have hconforms := (hencodes.succeeds_iff { maxDepth := 1 } "Shelf" Document.strayShelf).mp rfl
  exact ⟨_, _, rfl, hs, hconforms, rfl, hencodes.bytes_eq _ _ _ rfl, rfl⟩

end Thrift
