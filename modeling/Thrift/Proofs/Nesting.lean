-- How deep a value nests on the wire. What is passed over is counted level by level, structs,
-- containers and leaves alike, so an instance is passed over by its tags alone as soon as the
-- nesting limit is no less than its own nesting.
import Thrift.Proofs.RoundTrip

namespace Thrift

/-! ## Nesting -/

namespace Schema

mutual

/-- How many levels of a value as one of a form are sent. Whatever holds nothing is one level. -/
def nesting (s : Schema) : Form → Value → Nat
  | .list element, .list items => s.itemsNesting element items + 1
  | .set element, .set items => s.itemsNesting element items + 1
  | .map key value, .map entries => s.entriesNesting key value entries + 1
  | .struct name, .struct _ fields =>
    match s.record? name with
    | some r => (r.sent.map fun m => s.memberNesting m fields).foldr max 0 + 1
    | none => 1
  | _, _ => 1

def itemsNesting (s : Schema) (element : Form) : List Value → Nat
  | [] => 0
  | v :: vs => max (s.nesting element v) (s.itemsNesting element vs)

def entriesNesting (s : Schema) (key value : Form) : List (Value × Value) → Nat
  | [] => 0
  | (k, v) :: es =>
    max (max (s.nesting key k) (s.nesting value v)) (s.entriesNesting key value es)

/-- The levels of the value that fields have for a member; none when it is not set. -/
def memberNesting (s : Schema) (m : Member) : List (String × Value) → Nat
  | [] => 0
  | (n, v) :: rest =>
    if m.name = n then if v.isVoid then 0 else s.nesting m.form v else s.memberNesting m rest

end

theorem nesting_pos (s : Schema) (form : Form) (v : Value) : 0 < s.nesting form v := by
  unfold nesting
  split
  case h_4 => split <;> omega
  all_goals omega

theorem exists_of_nesting_le {s : Schema} {form : Form} {v : Value} {depth : Nat}
    (h : s.nesting form v ≤ depth) : ∃ n, depth = n + 1 := by
  have hpos := s.nesting_pos form v
  exact ⟨depth - 1, by omega⟩

theorem itemsNesting_le_iff {s : Schema} {element : Form} {vs : List Value} {depth : Nat} :
    s.itemsNesting element vs ≤ depth ↔ ∀ v ∈ vs, s.nesting element v ≤ depth := by
  induction vs with
  | nil => simp [itemsNesting]
  | cons v vs ih => rw [itemsNesting, Nat.max_le, ih, List.forall_mem_cons]

theorem entriesNesting_le_iff {s : Schema} {key value : Form} {es : List (Value × Value)}
    {depth : Nat} : s.entriesNesting key value es ≤ depth ↔
      ∀ e ∈ es, s.nesting key e.1 ≤ depth ∧ s.nesting value e.2 ≤ depth := by
  induction es with
  | nil => simp [entriesNesting]
  | cons e es ih => rw [entriesNesting, Nat.max_le, Nat.max_le, ih, List.forall_mem_cons]

/-- A member is as deep as the value that is held. -/
theorem memberNesting_eq (s : Schema) (m : Member) (v : StructValue) :
    s.memberNesting m v.fields = (v.held? m.name).elim 0 (s.nesting m.form) := by
  refine StructValue.eq_of_held (f := s.memberNesting m)
    (g := fun held => held.elim 0 (s.nesting m.form)) ?_ (fun n w rest => ?_) v
  · rw [memberNesting, Option.elim_none]
  · rw [memberNesting, Option.filter_some]
    rcases w.isVoid <;> rfl

theorem foldr_max_le_iff {ns : List Nat} {depth : Nat} :
    ns.foldr max 0 ≤ depth ↔ ∀ n ∈ ns, n ≤ depth := by
  induction ns with
  | nil => simp
  | cons n ns ih => rw [List.foldr_cons, Nat.max_le, ih, List.forall_mem_cons]

/-- An instance is one level deeper than what its members hold. -/
theorem nesting_le_iff {s : Schema} {name : String} {r : Record} (h : s.record? name = some r)
    {v : StructValue} {depth : Nat} : s.nesting (.struct name) v.toValue ≤ depth + 1 ↔
      ∀ m ∈ r.sent, ∀ w, v.held? m.name = some w → s.nesting m.form w ≤ depth := by
  rw [StructValue.toValue, nesting, h]
  dsimp only
  rw [Nat.succ_le_succ_iff, foldr_max_le_iff, List.forall_mem_map]
  refine forall₂_congr fun m _ => ?_
  rw [memberNesting_eq]
  rcases v.held? m.name with _ | w <;> simp

end Schema

/-! ## Passing over -/

open Reading (Reads skipWithin)

theorem Reading.times_items_reads {s : Schema} {element : Form} {body : Reading Unit}
    {vs : List Value} (h : ∀ v ∈ vs, Reads body (s.valueBytes element v) ()) :
    Reads (times body vs.length) (s.itemBytes element vs) () := by
  induction vs with
  | nil =>
    rw [Schema.itemBytes]
    exact .pure ()
  | cons v vs ih =>
    obtain ⟨hv, hvs⟩ := List.forall_mem_cons.mp h
    rw [Schema.itemBytes]
    exact hv.bind (ih hvs)

theorem Reading.times_entries_reads {s : Schema} {key value : Form}
    {skipKey skipValue : Reading Unit} {es : List (Value × Value)}
    (h : ∀ e ∈ es, Reads skipKey (s.valueBytes key e.1) () ∧
      Reads skipValue (s.valueBytes value e.2) ()) :
    Reads (times (skipKey >>= fun _ => skipValue) es.length) (s.entryBytes key value es) () := by
  induction es with
  | nil =>
    rw [Schema.entryBytes]
    exact .pure ()
  | cons e es ih =>
    obtain ⟨⟨hk, hv⟩, hes⟩ := List.forall_mem_cons.mp h
    rw [Schema.entryBytes]
    exact (hk.bind hv).bind (ih hes)

/-- A scalar is passed over by the tag of its kind. -/
theorem ScalarKind.skip_reads {kind : ScalarKind} {v : Value} (h : kind.Fits v) {c : WireConfig}
    (hc : v.Within c) (depth : Nat) :
    Reads (skipWithin c (depth + 1) kind.wireType) v.scalarBytes () := by
  cases kind <;> cases v <;> try exact h.elim
  case bool.bool b => exact (Reading.bool_reads b).map _
  case byte.byte n => exact (Reading.byte_reads n).map _
  case i16.i16 n => exact (Reading.i16_reads n).map _
  case i32.i32 n => exact (Reading.i32_reads n).map _
  case i64.i64 n => exact (Reading.i64_reads n).map _
  case double.double x => exact (Reading.double_reads x).map _
  case string.string s =>
    rw [Value.Within] at hc
    exact (Reading.binary_reads h hc).map _
  case binary.binary bs =>
    rw [Value.Within] at hc
    exact (Reading.binary_reads h hc).map _

/-- The bytes of a value are passed over by the tag of its form, when those of the structs inside
of it are. -/
theorem Form.skip_reads {s : Schema} {c : WireConfig} {fits : String → StructValue → Prop}
    (h : ∀ name v depth, fits name v → v.toValue.Within c →
      s.nesting (.struct name) v.toValue ≤ depth →
        Reads (skipWithin c depth .struct) (s.bytes name v) ())
    {form : Form} {v : Value} {depth : Nat} (hv : form.Fits fits v) (hc : v.Within c)
    (hd : s.nesting form v ≤ depth) :
    Reads (skipWithin c depth form.wireType) (s.valueBytes form v) () := by
  induction form generalizing v depth with
  | scalar kind =>
    obtain ⟨depth, rfl⟩ := Schema.exists_of_nesting_le hd
    rw [Schema.valueBytes]
    exact kind.skip_reads hv hc depth
  | struct name =>
    obtain ⟨inner, hinner, hfits⟩ := hv
    cases v with
    | struct n fields =>
      cases hinner
      exact h name ⟨n, fields⟩ depth hfits hc hd
    | _ => cases hinner
  | list element ih =>
    obtain ⟨items, rfl, hlength, hitems⟩ := hv
    obtain ⟨depth, rfl⟩ := Schema.exists_of_nesting_le hd
    rw [Value.Within, Value.itemsWithin_iff] at hc
    rw [Schema.nesting, Nat.succ_le_succ_iff, Schema.itemsNesting_le_iff] at hd
    rw [Schema.valueBytes]
    apply (Reading.listHeader_reads _ hlength hc.1).bind
    apply Reading.times_items_reads
    intro item hitem
    exact ih (hitems item hitem) (hc.2 item hitem) (hd item hitem)
  | set element ih =>
    obtain ⟨items, rfl, hlength, hitems⟩ := hv
    obtain ⟨depth, rfl⟩ := Schema.exists_of_nesting_le hd
    rw [Value.Within, Value.itemsWithin_iff] at hc
    rw [Schema.nesting, Nat.succ_le_succ_iff, Schema.itemsNesting_le_iff] at hd
    rw [Schema.valueBytes]
    apply (Reading.setHeader_reads _ hlength hc.1).bind
    apply Reading.times_items_reads
    intro item hitem
    exact ih (hitems item hitem) (hc.2 item hitem) (hd item hitem)
  | map key value ihk ihv =>
    obtain ⟨entries, rfl, hlength, hentries⟩ := hv
    obtain ⟨depth, rfl⟩ := Schema.exists_of_nesting_le hd
    rw [Value.Within, Value.entriesWithin_iff] at hc
    rw [Schema.nesting, Nat.succ_le_succ_iff, Schema.entriesNesting_le_iff] at hd
    rw [Schema.valueBytes]
    apply (Reading.mapHeader_reads _ _ hlength hc.1).bind
    apply Reading.times_entries_reads
    intro e he
    obtain ⟨hkey, hvalue⟩ := hentries e he
    exact ⟨ihk hkey (hc.2 e he).1 (hd e he).1, ihv hvalue (hc.2 e he).2 (hd e he).2⟩
  | void =>
    obtain ⟨depth, rfl⟩ := Schema.exists_of_nesting_le hd
    rw [Schema.valueBytes]
    exact .pure ()

/-- The members that an instance holds are passed over one after the other, up to the stop. -/
theorem Reading.skipMembers_reads {s : Schema} {c : WireConfig} {depth : Nat} {v : StructValue}
    {ms : List Member} (h : ∀ m ∈ ms, ∀ w, v.held? m.name = some w →
      Reads (skipWithin c depth m.form.wireType) (s.valueBytes m.form w) ()) :
    Reads (fields (fun header _ => skipWithin c depth header.type) ())
      ((ms.flatMap fun m => s.memberBytes m v.fields) ++ [WireType.stop.code]) () := by
  have ht := fun (header : FieldHeader) (_ : Unit) => skipWithin_takes c depth header.type
  induction ms with
  | nil =>
    rw [fields_eq ht]
    exact fieldStop_reads.bind (.pure ())
  | cons m ms ih =>
    obtain ⟨hvalue, hvalues⟩ := List.forall_mem_cons.mp h
    rw [List.flatMap_cons, Schema.memberBytes_eq]
    rcases hw : v.held? m.name with _ | w
    · exact ih hvalues
    · have hstop := m.form.wireType_ne_stop
      rw [Schema.heldBytes, List.append_assoc, List.append_assoc, fields_eq ht]
      apply (fieldHeader_reads hstop m.id).bind
      rw [if_neg hstop]
      exact (hvalue w hw).bind (ih hvalues)

/-- The bytes of an instance that conforms are passed over as a struct. The induction is on how
deep structs may be nested, which the instance keeps to. -/
theorem Schema.skip_reads {s : Schema} {c : WireConfig} {levels depth : Nat} {name : String}
    {v : StructValue} (h : s.ConformsWithin levels name v) (hc : v.toValue.Within c)
    (hd : s.nesting (.struct name) v.toValue ≤ depth) :
    Reads (skipWithin c depth .struct) (s.bytes name v) () := by
  induction levels generalizing name v depth with
  | zero => exact h.elim
  | succ levels ih =>
    obtain ⟨r, hr, hconforms⟩ := h
    obtain ⟨depth, rfl⟩ := exists_of_nesting_le hd
    rw [nesting_le_iff hr] at hd
    rw [bytes_eq hr]
    apply Reading.skipMembers_reads
    intro m hm w hw
    exact Form.skip_reads (fun _ _ _ hfits hwithin hnests => ih hfits hwithin hnests)
      (hconforms.shaped m hm w hw) (StructValue.within_of_held hc hw) (hd m hm w hw)

/-! ## Documents -/

/-- What is encoded describes itself: whoever knows only that it is a struct passes over it, and
leaves whatever follows. The limits of the reader need not be those of the writer. -/
theorem Machine.skip_encodeAs {d : Document} {c : Compiled} (hc : d.compile = .ok c) :
    ∃ s, d.schema = .ok s ∧ ∀ (sending config : WireConfig) (name : String) (v : StructValue),
      v.toValue.Within config → s.nesting (.struct name) v.toValue ≤ config.maxDepth →
        (encodeAs c sending name v).outcome = .ok () → ∀ rest,
          Reading.skip config .struct ((encodeAs c sending name v).bytes ++ rest) =
            .ok () rest := by
  obtain ⟨s, hs, hrealizes⟩ := Compiled.realizes_of_compile hc
  refine ⟨s, hs, fun sending config name v hwithin hnests h rest => ?_⟩
  have hconforms := (encodeAs_succeeds_iff hrealizes).mp h
  rw [encodeAs_bytes hrealizes h]
  exact Schema.skip_reads hconforms hwithin hnests rest

theorem Machine.skip_encodeAs_shelf : ∃ c, Document.shelf.compile = .ok c ∧
    Document.shelfValue.toValue.Within { maxDepth := 3 } ∧
    Document.shelfSchema.nesting (.struct "Shelf") Document.shelfValue.toValue = 3 ∧
    (encodeAs c {} "Shelf" Document.shelfValue).outcome = .ok () ∧ ∀ rest,
      Reading.skip { maxDepth := 3 } .struct
        ((encodeAs c {} "Shelf" Document.shelfValue).bytes ++ rest) = .ok () rest := by
  have hwithin : Document.shelfValue.toValue.Within { maxDepth := 3 } := by
    simp only [Document.shelfValue, StructValue.toValue, Value.Within, Value.FieldsWithin,
      Value.ItemsWithin]
    decide
  have hnesting : Document.shelfSchema.nesting (.struct "Shelf") Document.shelfValue.toValue = 3 :=
    rfl
  obtain ⟨s, hs, h⟩ := skip_encodeAs (d := Document.shelf) rfl
  cases Document.schema_shelf.symm.trans hs
  exact ⟨_, rfl, hwithin, hnesting, rfl,
    h {} { maxDepth := 3 } "Shelf" Document.shelfValue hwithin (Nat.le_of_eq hnesting) rfl⟩

end Thrift
