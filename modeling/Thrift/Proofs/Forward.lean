-- A reader that lacks some members reads what a writer that has them wrote. It passes over the
-- values of those members, which it can as long as none of them nests too deep, and else goes
-- along with the reader that has them, field by field.
import Thrift.Proofs.Nesting
import Thrift.Proofs.Pruning

namespace Thrift

/-! ## Reading side by side -/

namespace Reading

variable {α β γ δ : Type}

/-- On the bytes, whatever follows, the first reading ends with them where it succeeds at all, and
then the second one does too and gives the image of what the first one gave. -/
def Mirrors (φ : α → β) (m : Reading α) (n : Reading β) (bs : Bytes) : Prop :=
  ∀ rest a rest', m (bs ++ rest) = .ok a rest' → rest' = rest ∧ n (bs ++ rest) = .ok (φ a) rest

namespace Mirrors

variable {φ : α → β} {ψ : γ → δ} {m : Reading α} {n : Reading β} {bs cs : Bytes}

theorem of_reads {a : α} (hm : Reads m bs a) (hn : Reads n bs (φ a)) : Mirrors φ m n bs := by
  intro rest b rest' h
  cases (hm rest).symm.trans h
  exact ⟨rfl, hn rest⟩

theorem pure (a : α) : Mirrors φ (pure a) (pure (φ a)) [] := of_reads (.pure a) (.pure (φ a))

theorem throw (e : Fault) : Mirrors φ (throw e) n bs := by
  intro rest a rest' h
  cases h

theorem bind {f : α → Reading γ} {g : β → Reading δ} (h : Mirrors φ m n bs)
    (hfg : ∀ a, Mirrors ψ (f a) (g (φ a)) cs) : Mirrors ψ (m >>= f) (n >>= g) (bs ++ cs) := by
  intro rest b rest' hr
  rw [List.append_assoc] at hr ⊢
  obtain ⟨a, mid, ha, hb⟩ := Steps.bind_eq_ok_iff.mp hr
  obtain ⟨rfl, hn⟩ := h (cs ++ rest) a mid ha
  obtain ⟨rfl, hg⟩ := hfg a rest b rest' hb
  exact ⟨rfl, (Steps.bind_ok hn g).trans hg⟩

/-- Both sides read the same first. -/
theorem after {a : α} {f : α → Reading γ} {g : α → Reading δ} (h : Reads m bs a)
    (hfg : Mirrors ψ (f a) (g a) cs) : Mirrors ψ (m >>= f) (m >>= g) (bs ++ cs) := by
  intro rest b rest' hr
  rw [List.append_assoc, Steps.bind_ok (h (cs ++ rest))] at hr ⊢
  exact hfg rest b rest' hr

theorem map {f : α → γ} {g : β → δ} (h : Mirrors φ m n bs) (hfg : ∀ a, ψ (f a) = g (φ a)) :
    Mirrors ψ (f <$> m) (g <$> n) bs := by
  intro rest b rest' hr
  obtain ⟨a, ha, rfl⟩ := Steps.map_eq_ok_iff.mp hr
  obtain ⟨rfl, hn⟩ := h rest a rest' ha
  rw [hfg]
  exact ⟨rfl, Steps.map_ok hn g⟩

end Mirrors

end Reading

/-! ## Values that are sent -/

/-- The value of a member, and the struct that it is sent in. -/
structure SentValue where
  struct : String
  member : Member
  value : Value

namespace Schema

mutual

/-- The values of members that are sent inside of a value of a form, at any depth. -/
def sentValues (s : Schema) : Form → Value → List SentValue
  | .list element, .list items => s.sentItems element items
  | .set element, .set items => s.sentItems element items
  | .map key value, .map entries => s.sentEntries key value entries
  | .struct name, .struct _ fields =>
    match s.record? name with
    | some r => r.sent.flatMap fun m => s.sentMember name m fields
    | none => []
  | _, _ => []

def sentItems (s : Schema) (element : Form) : List Value → List SentValue
  | [] => []
  | v :: vs => s.sentValues element v ++ s.sentItems element vs

def sentEntries (s : Schema) (key value : Form) : List (Value × Value) → List SentValue
  | [] => []
  | (k, v) :: es => s.sentValues key k ++ s.sentValues value v ++ s.sentEntries key value es

/-- The value that fields have for a member, and what is sent inside of it. -/
def sentMember (s : Schema) (struct : String) (m : Member) : List (String × Value) → List SentValue
  | [] => []
  | (n, v) :: rest =>
    if m.name = n then if v.isVoid then [] else ⟨struct, m, v⟩ :: s.sentValues m.form v
    else s.sentMember struct m rest

end

/-- A value of a member that is left out nests no deeper than may be passed over, and is not all
that there is of a union. -/
def Skippable (s : Schema) (o : Omission) (c : WireConfig) (form : Form) (v : Value) : Prop :=
  ∀ x ∈ s.sentValues form v, o x.struct x.member.name = true →
    s.nesting x.member.form x.value ≤ c.maxDepth ∧
      ∀ r, s.record? x.struct = some r → r.kind ≠ .union

variable {s : Schema} {o : Omission} {c : WireConfig}

theorem mem_sentItems {element : Form} {vs : List Value} {x : SentValue} :
    x ∈ s.sentItems element vs ↔ ∃ v ∈ vs, x ∈ s.sentValues element v := by
  induction vs with
  | nil => simp [sentItems]
  | cons v vs ih => simp [sentItems, ih]

theorem mem_sentEntries {key value : Form} {es : List (Value × Value)} {x : SentValue} :
    x ∈ s.sentEntries key value es ↔
      ∃ e ∈ es, x ∈ s.sentValues key e.1 ∨ x ∈ s.sentValues value e.2 := by
  induction es with
  | nil => simp [sentEntries]
  | cons e es ih => simp [sentEntries, ih, or_assoc]

/-- What is sent of a member is the value that is held and what is inside of it. -/
theorem sentMember_eq (s : Schema) (struct : String) (m : Member) (v : StructValue) :
    s.sentMember struct m v.fields =
      (v.held? m.name).elim [] fun w => ⟨struct, m, w⟩ :: s.sentValues m.form w := by
  refine StructValue.eq_of_held (f := s.sentMember struct m)
    (g := fun held => held.elim [] fun w => ⟨struct, m, w⟩ :: s.sentValues m.form w)
    ?_ (fun n w rest => ?_) v
  · rw [sentMember, Option.elim_none]
  · rw [sentMember, Option.filter_some]
    rcases w.isVoid <;> rfl

theorem Skippable.list {element : Form} {items : List Value}
    (h : s.Skippable o c (.list element) (.list items)) {item : Value} (hitem : item ∈ items) :
    s.Skippable o c element item := by
  intro x hx
  apply h x
  rw [sentValues]
  exact mem_sentItems.mpr ⟨item, hitem, hx⟩

theorem Skippable.set {element : Form} {items : List Value}
    (h : s.Skippable o c (.set element) (.set items)) {item : Value} (hitem : item ∈ items) :
    s.Skippable o c element item := by
  intro x hx
  apply h x
  rw [sentValues]
  exact mem_sentItems.mpr ⟨item, hitem, hx⟩

theorem Skippable.map {key value : Form} {entries : List (Value × Value)}
    (h : s.Skippable o c (.map key value) (.map entries)) {e : Value × Value} (he : e ∈ entries) :
    s.Skippable o c key e.1 ∧ s.Skippable o c value e.2 := by
  constructor
  · intro x hx
    apply h x
    rw [sentValues]
    exact mem_sentEntries.mpr ⟨e, he, .inl hx⟩
  · intro x hx
    apply h x
    rw [sentValues]
    exact mem_sentEntries.mpr ⟨e, he, .inr hx⟩

/-- In an instance, both the value of a member and what is sent inside of it count. -/
theorem Skippable.member {name : String} {r : Record} (hr : s.record? name = some r)
    {v : StructValue} (h : s.Skippable o c (.struct name) v.toValue) {m : Member} (hm : m ∈ r.sent)
    {w : Value} (hw : v.held? m.name = some w) :
    (o name m.name = true → s.nesting m.form w ≤ c.maxDepth ∧ r.kind ≠ .union) ∧
      s.Skippable o c m.form w := by
  have hmem : ∀ x, x ∈ (⟨name, m, w⟩ :: s.sentValues m.form w : List SentValue) →
      x ∈ s.sentValues (.struct name) v.toValue := by
    intro x hx
    rw [StructValue.toValue, sentValues, hr]
    refine List.mem_flatMap.mpr ⟨m, hm, ?_⟩
    rw [sentMember_eq, hw]
    exact hx
  constructor
  · intro homit
    obtain ⟨hnests, hkind⟩ := h _ (hmem _ List.mem_cons_self) homit
    exact ⟨hnests, hkind r hr⟩
  · intro x hx
    exact h x (hmem x (List.mem_cons_of_mem _ hx))

end Schema

/-! ## Values -/

open Reading (Mirrors Reads Takes)

theorem ScalarKind.Fits.without {kind : ScalarKind} {v : Value} (h : kind.Fits v) (o : Omission) :
    v.without o = v := by
  cases v with
  | list => cases kind <;> exact h.elim
  | set => cases kind <;> exact h.elim
  | map => cases kind <;> exact h.elim
  | struct => cases kind <;> exact h.elim
  | _ => simp [Value.without]

namespace Form

variable {s : Schema} {o : Omission} {c : WireConfig}
  {nested nested' : String → Reading StructValue}

theorem readItems_mirrors {e : Form} {item item' : Reading Value} {vs : List Value}
    (h : ∀ v ∈ vs, Mirrors (Value.without o) item item' (s.valueBytes e v)) :
    Mirrors (Value.itemsWithout o) (readItems item vs.length) (readItems item' vs.length)
      (s.itemBytes e vs) := by
  induction vs with
  | nil =>
    rw [Schema.itemBytes]
    exact .of_reads (.pure []) (.pure (Value.itemsWithout o []))
  | cons v vs ih =>
    obtain ⟨hv, hvs⟩ := List.forall_mem_cons.mp h
    rw [Schema.itemBytes]
    apply hv.bind
    intro first
    apply (ih hvs).map
    intro others
    rw [Value.itemsWithout]

theorem readEntries_mirrors {k e : Form} {key key' value value' : Reading Value}
    {es : List (Value × Value)}
    (h : ∀ entry ∈ es, Mirrors (Value.without o) key key' (s.valueBytes k entry.1) ∧
      Mirrors (Value.without o) value value' (s.valueBytes e entry.2)) :
    Mirrors (Value.entriesWithout o) (readEntries key value es.length)
      (readEntries key' value' es.length) (s.entryBytes k e es) := by
  induction es with
  | nil =>
    rw [Schema.entryBytes]
    exact .of_reads (.pure []) (.pure (Value.entriesWithout o []))
  | cons entry es ih =>
    obtain ⟨⟨hk, hv⟩, hes⟩ := List.forall_mem_cons.mp h
    rw [Schema.entryBytes, List.append_assoc]
    apply hk.bind
    intro firstKey
    apply hv.bind
    intro first
    apply (ih hes).map
    intro others
    rw [Value.entriesWithout]

/-- A value that fits is read side by side when the structs inside of it are. -/
theorem read_mirrors {fits : String → StructValue → Prop}
    (h : ∀ name v, fits name v → v.toValue.Within c →
      s.Skippable o c (.struct name) v.toValue →
        Mirrors (StructValue.without o) (nested name) (nested' name) (s.bytes name v))
    {form : Form} {v : Value} (hv : form.Fits fits v) (hc : v.Within c)
    (hs : s.Skippable o c form v) :
    Mirrors (Value.without o) (form.read c nested) (form.read c nested') (s.valueBytes form v) := by
  induction form generalizing v with
  | scalar kind =>
    have hread := Machine.readScalar_reads hv hc
    rw [Schema.valueBytes]
    apply Mirrors.of_reads hread
    rw [hv.without o]
    exact hread
  | struct name =>
    obtain ⟨inner, hinner, hfits⟩ := hv
    cases v with
    | struct n fields =>
      cases hinner
      apply (h name ⟨n, fields⟩ hfits hc hs).map
      intro a
      exact (a.toValue_without o).symm
    | _ => cases hinner
  | list element ih =>
    obtain ⟨items, rfl, hlength, hitems⟩ := hv
    rw [Value.Within, Value.itemsWithin_iff] at hc
    rw [Schema.valueBytes]
    apply Mirrors.after (Reading.listHeader_reads _ hlength hc.1)
    apply Mirrors.map
    · apply readItems_mirrors
      intro item hitem
      exact ih (hitems item hitem) (hc.2 item hitem) (hs.list hitem)
    · intro found
      rw [Value.without]
  | set element ih =>
    obtain ⟨items, rfl, hlength, hitems⟩ := hv
    rw [Value.Within, Value.itemsWithin_iff] at hc
    rw [Schema.valueBytes]
    apply Mirrors.after (Reading.setHeader_reads _ hlength hc.1)
    apply Mirrors.map
    · apply readItems_mirrors
      intro item hitem
      exact ih (hitems item hitem) (hc.2 item hitem) (hs.set hitem)
    · intro found
      rw [Value.without]
  | map key value ihk ihv =>
    obtain ⟨entries, rfl, hlength, hentries⟩ := hv
    rw [Value.Within, Value.entriesWithin_iff] at hc
    rw [Schema.valueBytes]
    apply Mirrors.after (Reading.mapHeader_reads _ _ hlength hc.1)
    apply Mirrors.map
    · apply readEntries_mirrors
      intro e he
      obtain ⟨hkey, hvalue⟩ := hentries e he
      obtain ⟨hskey, hsvalue⟩ := hs.map he
      exact ⟨ihk hkey (hc.2 e he).1 hskey, ihv hvalue (hc.2 e he).2 hsvalue⟩
    · intro found
      rw [Value.without]
  | void =>
    have hvoid : Value.void.without o = Value.void := by simp [Value.without]
    rw [Schema.valueBytes]
    apply Mirrors.of_reads (.pure Value.void)
    rw [hvoid]
    exact .pure Value.void

end Form

/-! ## Records -/

namespace Record

variable {s : Schema} {o : Omission} {c : WireConfig} {r : Record} {m : Member}
  {nested nested' : String → Reading StructValue}

theorem ids_without (h : (r.members.map (·.id)).Nodup) :
    ((r.without o).members.map (·.id)).Nodup := by
  have hsub : ((r.members.filter fun m => !o r.name m.name).map (·.id)).Nodup :=
    h.sublist (List.filter_sublist.map _)
  rw [without, List.map_map]
  exact hsub

/-- A member that is kept is found under its id. -/
theorem find?_without (h : (r.members.map (·.id)).Nodup) (hm : m ∈ r.members)
    (hkept : o r.name m.name = false) :
    (r.without o).members.find? (·.id == m.id) = some (m.without o) := by
  have hmem : m.without o ∈ (r.without o).members :=
    List.mem_map_of_mem (List.mem_filter.mpr ⟨hm, by simp [hkept]⟩)
  exact find?_of_nodup (ids_without h) hmem

/-- No member is found under the id of one that is left out. -/
theorem find?_without_eq_none (h : (r.members.map (·.id)).Nodup) (hm : m ∈ r.members)
    (homit : o r.name m.name = true) : (r.without o).members.find? (·.id == m.id) = none := by
  rw [List.find?_eq_none]
  intro m' hm' hid
  obtain ⟨m'', hm'', rfl⟩ := List.mem_map.mp hm'
  obtain ⟨hmem, hkept⟩ := List.mem_filter.mp hm''
  have hfound := find?_of_nodup h hmem
  have hid : m''.id = m.id := beq_iff_eq.mp hid
  rw [hid, find?_of_nodup h hm] at hfound
  cases hfound
  rw [homit] at hkept
  cases hkept

/-- The value behind the header of a member is read side by side, or else passed over. -/
theorem readField_mirrors (h : (r.members.map (·.id)).Nodup) (hm : m ∈ r.sent) {bs : Bytes}
    (hvalue : Mirrors (Value.without o) (m.form.read c nested) (m.form.read c nested') bs)
    (hskip : o r.name m.name = true → Reads (Reading.skip c m.form.wireType) bs ())
    (before : List (String × Value)) :
    Mirrors (Value.fieldsWithout o r.name) (r.readField c nested ⟨m.form.wireType, m.id⟩ before)
      ((r.without o).readField c nested' ⟨m.form.wireType, m.id⟩
        (Value.fieldsWithout o r.name before)) bs := by
  obtain ⟨hmem, hvoid⟩ := List.mem_filter.mp hm
  have hvoid : ¬ m.isVoid = true := by simpa using hvoid
  rw [readField, readField, find?_of_nodup h hmem]
  dsimp only
  rw [Member.readValue, if_pos rfl, if_neg hvoid]
  by_cases homit : o r.name m.name = true
  · rw [find?_without_eq_none h hmem homit]
    intro rest found rest' hr
    obtain ⟨a, ha, rfl⟩ := Steps.map_eq_ok_iff.mp hr
    obtain ⟨rfl, -⟩ := hvalue rest a rest' ha
    refine ⟨rfl, ?_⟩
    rw [Value.fieldsWithout, if_pos homit]
    exact (Steps.bind_ok (hskip homit rest') _)
  · have hkept : o r.name m.name = false := by simpa using homit
    have hform : (m.without o).form = m.form := rfl
    have hsent : ¬ (m.without o).isVoid = true := hvoid
    rw [find?_without h hmem hkept]
    dsimp only
    rw [Member.readValue, hform, if_pos rfl, if_neg hsent]
    apply hvalue.map
    intro a
    rw [Value.fieldsWithout, if_neg homit]
    rfl

/-- The members that an instance holds are read side by side, up to the end of the struct. -/
theorem fields_mirrors (ht : ∀ name, Takes (nested name)) (ht' : ∀ name, Takes (nested' name))
    (h : (r.members.map (·.id)).Nodup) {v : StructValue} {ms : List Member}
    (hms : ∀ m ∈ ms, m ∈ r.sent)
    (hvalues : ∀ m ∈ ms, ∀ w, v.held? m.name = some w →
      Mirrors (Value.without o) (m.form.read c nested) (m.form.read c nested')
        (s.valueBytes m.form w) ∧
      (o r.name m.name = true →
        Reads (Reading.skip c m.form.wireType) (s.valueBytes m.form w) ()))
    (before : List (String × Value)) :
    Mirrors (Value.fieldsWithout o r.name) (Reading.fields (r.readField c nested) before)
      (Reading.fields ((r.without o).readField c nested') (Value.fieldsWithout o r.name before))
      ((ms.flatMap fun m => s.memberBytes m v.fields) ++ [WireType.stop.code]) := by
  induction ms generalizing before with
  | nil =>
    rw [Reading.fields_eq (readField_takes ht r), Reading.fields_eq (readField_takes ht' _)]
    change Mirrors _ _ _ ([WireType.stop.code] ++ [])
    exact Mirrors.after Reading.fieldStop_reads (.pure before)
  | cons m ms ih =>
    obtain ⟨hm, hrest⟩ := List.forall_mem_cons.mp hms
    obtain ⟨hvalue, hvalues⟩ := List.forall_mem_cons.mp hvalues
    rw [List.flatMap_cons, Schema.memberBytes_eq]
    rcases hw : v.held? m.name with _ | w
    · exact ih hrest hvalues before
    · have hstop := m.form.wireType_ne_stop
      obtain ⟨hread, hskip⟩ := hvalue w hw
      rw [Schema.heldBytes, List.append_assoc, List.append_assoc,
        Reading.fields_eq (readField_takes ht r), Reading.fields_eq (readField_takes ht' _)]
      apply Mirrors.after (Reading.fieldHeader_reads hstop m.id)
      rw [if_neg hstop, if_neg hstop]
      apply (readField_mirrors h hm hread hskip before).bind
      intro found
      exact ih hrest hvalues found

/-- Under a name that an instance holds nothing for, nothing is found behind its members. -/
theorem lookup_of_fields (ht : ∀ name, Takes (nested name)) (h : (r.members.map (·.id)).Nodup)
    {v : StructValue} {ms : List Member} (hms : ∀ m ∈ ms, m ∈ r.sent)
    (hvalues : ∀ m ∈ ms, ∀ w, v.held? m.name = some w →
      Mirrors (Value.without o) (m.form.read c nested) (m.form.read c nested')
        (s.valueBytes m.form w))
    {name : String} (hname : v.held? name = none) {before found : List (String × Value)}
    {rest rest' : Bytes}
    (hr : Reading.fields (r.readField c nested) before
      (((ms.flatMap fun m => s.memberBytes m v.fields) ++ [WireType.stop.code]) ++ rest) =
        .ok found rest') : found.lookup name = before.lookup name := by
  induction ms generalizing before with
  | nil =>
    rw [List.flatMap_nil, List.nil_append, Reading.fields_eq (readField_takes ht r),
      Steps.bind_ok (Reading.fieldStop_reads rest), if_pos rfl] at hr
    obtain ⟨rfl, -⟩ := Steps.pure_eq_ok_iff.mp hr
    rfl
  | cons m ms ih =>
    obtain ⟨hm, hrest⟩ := List.forall_mem_cons.mp hms
    obtain ⟨hvalue, hvalues⟩ := List.forall_mem_cons.mp hvalues
    rw [List.flatMap_cons, Schema.memberBytes_eq] at hr
    rcases hw : v.held? m.name with _ | w
    · rw [hw] at hr
      exact ih hrest hvalues hr
    · have hstop := m.form.wireType_ne_stop
      have hheader : Reads Reading.fieldHeader m.headerBytes ⟨m.form.wireType, m.id⟩ :=
        Reading.fieldHeader_reads hstop m.id
      obtain ⟨hmem, hvoid⟩ := List.mem_filter.mp hm
      rw [hw, Schema.heldBytes, List.append_assoc, List.append_assoc, List.append_assoc,
        Reading.fields_eq (readField_takes ht r), Steps.bind_ok (hheader _), if_neg hstop] at hr
      obtain ⟨found', mid, hfield, hr⟩ := Steps.bind_eq_ok_iff.mp hr
      rw [readField, find?_of_nodup h hmem] at hfield
      dsimp only at hfield
      rw [Member.readValue, if_pos rfl, if_neg (by simpa using hvoid)] at hfield
      obtain ⟨a, ha, rfl⟩ := Steps.map_eq_ok_iff.mp hfield
      obtain ⟨rfl, -⟩ := hvalue w hw _ a mid ha
      have hne : name ≠ m.name := by
        rintro rfl
        cases hw.symm.trans hname
      rw [← List.append_assoc] at hr
      rw [ih hrest hvalues hr, lookup_cons_ne hne]

end Record

/-! ## Structs -/

/-- A conforming instance is read by the whole schema and by the one that lacks members side by
side. The induction is on the levels of the readers, of which a value that is passed over needs
none. -/
theorem Schema.readWithin_mirrors {s : Schema} {o : Omission} {c : WireConfig}
    (hids : ∀ r ∈ s.records, (r.members.map (·.id)).Nodup) {levels depth : Nat} {name : String}
    {v : StructValue} (h : s.ConformsWithin depth name v)
    (hc : v.toValue.Within c) (hs : s.Skippable o c (.struct name) v.toValue) :
    Mirrors (StructValue.without o) (s.readWithin Record.built c levels name)
      ((s.without o).readWithin Record.built c levels name) (s.bytes name v) := by
  induction levels generalizing depth name v with
  | zero => exact .throw _
  | succ levels ih =>
    cases depth with
    | zero => exact h.elim
    | succ depth =>
      obtain ⟨r, hr, hconforms⟩ := h
      have hmem := mem_of_record? hr
      have hname := name_of_record? hr
      have hvalues : ∀ m ∈ r.sent, ∀ w, v.held? m.name = some w →
          Mirrors (Value.without o) (m.form.read c (s.readWithin Record.built c levels))
            (m.form.read c ((s.without o).readWithin Record.built c levels))
            (s.valueBytes m.form w) ∧
          (o r.name m.name = true →
            Reads (Reading.skip c m.form.wireType) (s.valueBytes m.form w) () ∧
              r.kind ≠ .union) := by
        intro m hm w hw
        have hshaped := hconforms.shaped m hm w hw
        have hwithin := StructValue.within_of_held hc hw
        obtain ⟨homitted, hinner⟩ := hs.member hr hm hw
        constructor
        · exact Form.read_mirrors (fun _ _ hfits hwithin hskip => ih hfits hwithin hskip) hshaped
            hwithin hinner
        · intro homit
          rw [hname] at homit
          obtain ⟨hnests, hkind⟩ := homitted homit
          exact ⟨Form.skip_reads
            (fun _ _ _ hfits hwithin hnests => skip_reads hfits hwithin hnests)
            hshaped hwithin hnests, hkind⟩
      have htakes := s.readWithin_takes Record.built c levels
      have htakes' := (s.without o).readWithin_takes Record.built c levels
      have hfields := Record.fields_mirrors htakes htakes' (hids r hmem) (fun _ hm => hm)
        (fun m hm w hw => ⟨(hvalues m hm w hw).1, fun homit => ((hvalues m hm w hw).2 homit).1⟩) []
      rw [readWithin, readWithin, record?_without, hr, bytes_eq hr]
      dsimp only [Option.map_some]
      intro rest built rest' hread
      obtain ⟨found, hfound, hbuilt⟩ := Record.read_eq_ok_iff.mp hread
      obtain ⟨rfl, hfound'⟩ := hfields rest found rest' hfound
      have hunion : r.kind = .union → ∀ m ∈ r.sent, o r.name m.name = true →
          found.lookup m.name = none := by
        intro hkind m hm homit
        refine Record.lookup_of_fields htakes (hids r hmem) (fun _ hm => hm)
          (fun m hm w hw => (hvalues m hm w hw).1) ?_ hfound
        rcases hw : v.held? m.name with _ | w
        · rfl
        · exact absurd hkind ((hvalues m hm w hw).2 homit).2
      refine ⟨rfl, Record.read_eq_ok_iff.mpr ⟨_, hfound', ?_⟩⟩
      exact Record.built_without hunion hbuilt

end Thrift
