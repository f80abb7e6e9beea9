-- What decoding gives. Whatever was read has the shape that the schema tells and is its own
-- normal form. The defaults beside it were never looked at: construction checks what was found
-- and fills them in afterwards.
import Mathlib.Data.List.Nodup
import Thrift.Proofs.Message
import Thrift.Proofs.RoundTrip

namespace Thrift

/-! ## How deep structs are nested -/

namespace Value

mutual

/-- How many structs stand inside of each other, containers not counted. -/
def structDepth : Value → Nat
  | list items => itemsDepth items
  | set items => itemsDepth items
  | map entries => entriesDepth entries
  | struct _ fields => fieldsDepth fields + 1
  | _ => 0

def itemsDepth : List Value → Nat
  | [] => 0
  | v :: vs => max v.structDepth (itemsDepth vs)

def entriesDepth : List (Value × Value) → Nat
  | [] => 0
  | (k, v) :: es => max (max k.structDepth v.structDepth) (entriesDepth es)

def fieldsDepth : List (String × Value) → Nat
  | [] => 0
  | (_, v) :: rest => max v.structDepth (fieldsDepth rest)

end

theorem itemsDepth_le_iff {vs : List Value} {depth : Nat} :
    itemsDepth vs ≤ depth ↔ ∀ v ∈ vs, v.structDepth ≤ depth := by
  induction vs with
  | nil => simp [itemsDepth]
  | cons v vs ih => rw [itemsDepth, Nat.max_le, ih, List.forall_mem_cons]

theorem entriesDepth_le_iff {es : List (Value × Value)} {depth : Nat} :
    entriesDepth es ≤ depth ↔ ∀ e ∈ es, e.1.structDepth ≤ depth ∧ e.2.structDepth ≤ depth := by
  induction es with
  | nil => simp [entriesDepth]
  | cons e es ih => rw [entriesDepth, Nat.max_le, Nat.max_le, ih, List.forall_mem_cons]

theorem fieldsDepth_le_iff {fields : List (String × Value)} {depth : Nat} :
    fieldsDepth fields ≤ depth ↔ ∀ e ∈ fields, e.2.structDepth ≤ depth := by
  induction fields with
  | nil => simp [fieldsDepth]
  | cons e fields ih => rw [fieldsDepth, Nat.max_le, ih, List.forall_mem_cons]

theorem structDepth_hereditary (depth : Nat) :
    Form.Hereditary fun _ v => v.structDepth ≤ depth where
  list element items h := by
    rw [structDepth, itemsDepth_le_iff] at h
    exact h
  set element items h := by
    rw [structDepth, itemsDepth_le_iff] at h
    exact h
  map key value entries h := by
    rw [structDepth, entriesDepth_le_iff] at h
    exact h

end Value

theorem StructValue.toValue_injective : Function.Injective toValue := by
  rintro ⟨name, fields⟩ ⟨name', fields'⟩ h
  cases h
  rfl

theorem StructValue.structDepth_of_held {v : StructValue} {depth : Nat}
    (h : v.toValue.structDepth ≤ depth + 1) {field : String} {w : Value}
    (hw : v.held? field = some w) : w.structDepth ≤ depth := by
  rw [toValue, Value.structDepth, Nat.succ_le_succ_iff, Value.fieldsDepth_le_iff] at h
  exact h (field, w) (mem_of_held hw)

namespace Schema

/-- What conforms at some depth conforms already at its own depth. -/
theorem ConformsWithin.of_structDepth {s : Schema} {levels depth : Nat} {name : String}
    {v : StructValue} (h : s.ConformsWithin levels name v) (hd : v.toValue.structDepth ≤ depth) :
    s.ConformsWithin depth name v := by
  induction levels generalizing depth name v with
  | zero => exact h.elim
  | succ levels ih =>
    obtain ⟨r, hr, hconforms⟩ := h
    obtain ⟨depth, rfl⟩ : ∃ n, depth = n + 1 := by
      rw [StructValue.toValue, Value.structDepth] at hd
      exact ⟨depth - 1, by omega⟩
    refine ⟨r, hr, hconforms.required_set, hconforms.single, fun m hm w hw => ?_⟩
    apply (hconforms.shaped m hm w hw).imp (Value.structDepth_hereditary depth)
    · intro name v hdepth hv
      exact ih hv hdepth
    · exact StructValue.structDepth_of_held hd hw

/-- The instance conforms to the struct of a name, however deep its structs are nested. -/
def Conforms (s : Schema) (name : String) (v : StructValue) : Prop :=
  ∃ levels, s.ConformsWithin levels name v

/-- An instance conforms when what it holds conforms, with no bound on how deep. -/
theorem conforms_of_record {s : Schema} {name : String} {r : Record} (hr : s.record? name = some r)
    {v : StructValue} (h : r.Conforms s.Conforms v) : s.Conforms name v := by
  -- each value that is held has a bound of its own, and the depth of them all is one for all
  refine ⟨Value.fieldsDepth v.fields + 1, r, hr, h.required_set, h.single, fun m hm w hw => ?_⟩
  apply (h.shaped m hm w hw).imp (Value.structDepth_hereditary (Value.fieldsDepth v.fields))
  · rintro name v hdepth ⟨levels, hv⟩
    exact hv.of_structDepth hdepth
  · exact StructValue.structDepth_of_held (Nat.le_refl _) hw

end Schema

/-! ## Instances that are their own normal form -/

namespace Schema

variable {s : Schema}

theorem normalItems_eq_self_iff {element : Form} {vs : List Value} :
    s.normalItems element vs = vs ↔ ∀ v ∈ vs, s.normalValue element v = v := by
  induction vs with
  | nil => simp [normalItems]
  | cons v vs ih => simp [normalItems, ih]

theorem normalEntries_eq_self_iff {key value : Form} {es : List (Value × Value)} :
    s.normalEntries key value es = es ↔
      ∀ e ∈ es, s.normalValue key e.1 = e.1 ∧ s.normalValue value e.2 = e.2 := by
  induction es with
  | nil => simp [normalEntries]
  | cons e es ih =>
    obtain ⟨k, v⟩ := e
    simp [normalEntries, ih]

theorem normalValue_hereditary (s : Schema) :
    Form.Hereditary fun form v => s.normalValue form v = v where
  list element items h := by
    rw [normalValue, Value.list.injEq, normalItems_eq_self_iff] at h
    exact h
  set element items h := by
    rw [normalValue, Value.set.injEq, normalItems_eq_self_iff] at h
    exact h
  map key value entries h := by
    rw [normalValue, Value.map.injEq, normalEntries_eq_self_iff] at h
    exact h

theorem normalValue_scalar (s : Schema) (kind : ScalarKind) (v : Value) :
    s.normalValue (.scalar kind) v = v := by
  cases v <;> rfl

end Schema

namespace Record

variable {r : Record}

theorem find?_sent_of_void (hnames : (r.members.map (·.name)).Nodup) {m : Member}
    (hm : m ∈ r.members) (hvoid : m.isVoid = true) : r.sent.find? (·.name == m.name) = none := by
  rw [List.find?_eq_none]
  intro m' hm' hname
  obtain ⟨hmem, hsent⟩ := List.mem_filter.mp hm'
  have heq : m' = m := List.inj_on_of_nodup_map hnames hmem hm (beq_iff_eq.mp hname)
  simp [heq, hvoid] at hsent

theorem find?_sent (hnames : (r.members.map (·.name)).Nodup) {m : Member} (hm : m ∈ r.sent) :
    r.sent.find? (·.name == m.name) = some m := find?_of_nodup (sent_names_nodup hnames) hm

/-- At most one member has a given name. -/
theorem countP_le_one {ms : List Member} (h : (ms.map (·.name)).Nodup) {p : Member → Bool}
    {name : String} (hp : ∀ m ∈ ms, p m = true → m.name = name) : ms.countP p ≤ 1 := by
  have hcount : ms.countP (fun m => m.name == name) ≤ 1 := by
    have hnames := List.nodup_iff_count_le_one.mp h name
    rwa [List.count, List.countP_map] at hnames
  refine Nat.le_trans (List.countP_mono_left fun m hm hset => ?_) hcount
  exact beq_iff_eq.mpr (hp m hm hset)

/-- Of an instance that holds nothing for void members, as many members are held as are sent. -/
theorem countP_sent {v : StructValue}
    (h : ∀ m ∈ r.members, m.isVoid = true → v.held? m.name = none) :
    r.sent.countP (fun m => (v.held? m.name).isSome) =
      r.members.countP fun m => (v.held? m.name).isSome := by
  unfold sent
  rw [List.countP_filter]
  apply List.countP_congr
  intro m hm
  by_cases hvoid : m.isVoid = true
  · simp [h m hm hvoid]
  · simp [hvoid]

end Record

namespace Schema

variable {s : Schema} {name : String} {r : Record} {v : StructValue}

theorem held?_of_void (hr : s.record? name = some r) (hnames : (r.members.map (·.name)).Nodup)
    (hown : s.normal name v = v) {m : Member} (hm : m ∈ r.members) (hvoid : m.isVoid = true) :
    v.held? m.name = none := by
  unfold StructValue.held?
  rw [← hown, normal_get? hr hnames, Record.find?_sent_of_void hnames hm hvoid]
  rfl

theorem normalValue_of_held (hr : s.record? name = some r)
    (hnames : (r.members.map (·.name)).Nodup) (hown : s.normal name v = v) {m : Member}
    (hm : m ∈ r.sent) {w : Value} (hw : v.held? m.name = some w) :
    s.normalValue m.form w = w := by
  have hget := (StructValue.held?_eq_some_iff.mp hw).1
  rw [← hown, normal_get? hr hnames, Record.find?_sent hnames hm, Option.bind_some, hw,
    Option.map_some, Option.some_or] at hget
  exact Option.some.inj hget

/-- An instance that conforms and is its own normal form is sent as it is, void members of unions
or not. -/
theorem ConformsWithin.sends_of_own (hnames : ∀ r ∈ s.records, (r.members.map (·.name)).Nodup)
    {levels : Nat} {name : String} {v : StructValue} (h : s.ConformsWithin levels name v)
    (hown : s.normal name v = v) : s.SendsWithin levels name v := by
  induction levels generalizing name v with
  | zero => exact h
  | succ levels ih =>
    obtain ⟨r, hr, hconforms⟩ := h
    have hnodup := hnames r (mem_of_record? hr)
    refine ⟨r, hr, fun m hm hrequired => ?_, fun hkind => ?_, fun m hm w hw => ?_⟩
    · exact hconforms.required_set m (List.mem_of_mem_filter hm) hrequired
    · rw [Record.countP_sent fun m hm hvoid => held?_of_void hr hnodup hown hm hvoid]
      exact hconforms.single hkind
    · apply (hconforms.shaped m hm w hw).imp s.normalValue_hereditary
      · intro name v hnormal hv
        rw [normalValue_struct] at hnormal
        exact ih hv (StructValue.toValue_injective hnormal)
      · exact normalValue_of_held hr hnodup hown hm hw

end Schema

/-! ## Settled instances -/

/-- Sending changes nothing of the value: it has the shape of the form and is its own normal
form. -/
structure Schema.Lasts (s : Schema) (form : Form) (w : Value) : Prop where
  fits : form.Fits s.Conforms w
  own : s.normalValue form w = w

/-- The instance is inside of the value of a form, as the struct of a name, or is that value. -/
inductive Schema.Holds (s : Schema) : Form → Value → String → StructValue → Prop
  | here (name : String) (v : StructValue) : s.Holds (.struct name) v.toValue name v
  | listed {element : Form} {items : List Value} {item : Value} {name : String} {v : StructValue} :
      item ∈ items → s.Holds element item name v → s.Holds (.list element) (.list items) name v
  | gathered {element : Form} {items : List Value} {item : Value} {name : String}
      {v : StructValue} :
      item ∈ items → s.Holds element item name v → s.Holds (.set element) (.set items) name v
  | key {key value : Form} {entries : List (Value × Value)} {entry : Value × Value}
      {name : String} {v : StructValue} : entry ∈ entries → s.Holds key entry.1 name v →
        s.Holds (.map key value) (.map entries) name v
  | mapped {key value : Form} {entries : List (Value × Value)} {entry : Value × Value}
      {name : String} {v : StructValue} : entry ∈ entries → s.Holds value entry.2 name v →
        s.Holds (.map key value) (.map entries) name v
  | member {outer : String} {r : Record} {m : Member} {u : StructValue} {w : Value}
      {name : String} {v : StructValue} : s.record? outer = some r → m ∈ r.sent →
        u.get? m.name = some w → s.Holds m.form w name v →
        s.Holds (.struct outer) u.toValue name v

/-- A member that need not be set holds the value that it has by default. -/
def Member.Defaulted (m : Member) (v : StructValue) (w : Value) : Prop :=
  m.required = false ∧ m.default = some w ∧ v.held? m.name = some w

/-- What construction does not look at: all that is required can be sent, in a union no default
stands beside another member, and the defaults that are set last. -/
structure Record.Settled (s : Schema) (r : Record) (v : StructValue) : Prop where
  required_sent : ∀ m ∈ r.members, m.required = true → m.isVoid = false
  alone : r.kind = .union → ∀ m ∈ r.sent, ∀ w, m.Defaulted v w →
    ∀ m' ∈ r.sent, (v.held? m'.name).isSome → m'.name = m.name
  lasts : ∀ m ∈ r.sent, ∀ w, m.Defaulted v w → s.Lasts m.form w

/-- Every instance inside of the value is settled. -/
def Schema.Settled (s : Schema) (form : Form) (v : Value) : Prop :=
  ∀ name u, s.Holds form v name u → ∀ r, s.record? name = some r → r.Settled s u

theorem Schema.settled_hereditary (s : Schema) : Form.Hereditary s.Settled where
  list _ _ h _ hitem name u hu := h name u (.listed hitem hu)
  set _ _ h _ hitem name u hu := h name u (.gathered hitem hu)
  map _ _ _ h _ he :=
    ⟨fun name u hu => h name u (.key he hu), fun name u hu => h name u (.mapped he hu)⟩

/-- The value lasts where it is settled. -/
def Schema.Sound (s : Schema) (form : Form) (w : Value) : Prop :=
  s.Settled form w → s.Lasts form w

/-! ## Values that were read -/

open Reading (Gives)

namespace Reading

theorem listHeader_gives (c : WireConfig) : Gives (·.size < sizeBound) (listHeader c) :=
  (Gives.any _).bind fun _ _ => (size_gives _ _).map fun _ h => h

theorem setHeader_gives (c : WireConfig) : Gives (·.size < sizeBound) (setHeader c) :=
  (Gives.any _).bind fun _ _ => (size_gives _ _).map fun _ h => h

theorem mapHeader_gives (c : WireConfig) : Gives (·.size < sizeBound) (mapHeader c) :=
  (Gives.any _).bind fun _ _ => (Gives.any _).bind fun _ _ => (size_gives _ _).map fun _ h => h

end Reading

theorem Machine.readScalar_gives (c : WireConfig) (kind : ScalarKind) :
    Gives kind.Fits (readScalar c kind) := by
  cases kind with
  | string => exact (Reading.string_gives c).map fun _ h => h
  | binary => exact (Reading.binary_gives c).map fun _ h => h
  | _ => exact (Gives.any _).map fun _ _ => trivial

namespace Form

theorem readItems_gives {P : Value → Prop} {item : Reading Value} (h : Gives P item) (n : Nat) :
    Gives (fun vs => vs.length = n ∧ ∀ v ∈ vs, P v) (readItems item n) := by
  induction n with
  | zero => exact .pure ⟨rfl, by simp⟩
  | succ n ih =>
    refine h.bind fun v hv => ih.map fun vs hvs => ⟨?_, ?_⟩
    · rw [List.length_cons, hvs.1]
    · exact List.forall_mem_cons.mpr ⟨hv, hvs.2⟩

theorem readEntries_gives {P Q : Value → Prop} {key value : Reading Value} (hk : Gives P key)
    (hv : Gives Q value) (n : Nat) :
    Gives (fun es => es.length = n ∧ ∀ e ∈ es, P e.1 ∧ Q e.2) (readEntries key value n) := by
  induction n with
  | zero => exact .pure ⟨rfl, by simp⟩
  | succ n ih =>
    refine hk.bind fun k hk => hv.bind fun v hv => ih.map fun es hes => ⟨?_, ?_⟩
    · rw [List.length_cons, hes.1]
    · exact List.forall_mem_cons.mpr ⟨⟨hk, hv⟩, hes.2⟩

/-- What is read is sound when the structs inside of it are. -/
theorem read_gives {s : Schema} {c : WireConfig} {nested : String → Reading StructValue}
    (h : ∀ name, Gives (fun v => s.Sound (.struct name) v.toValue) (nested name)) (form : Form) :
    Gives (s.Sound form) (form.read c nested) := by
  induction form with
  | scalar kind =>
    exact (Machine.readScalar_gives c kind).imp fun w hw _ => ⟨hw, s.normalValue_scalar kind w⟩
  | struct name => exact (h name).map fun _ hv => hv
  | list element ih =>
    refine (Reading.listHeader_gives c).bind fun header hsize => ?_
    refine (readItems_gives ih header.size).map ?_
    rintro items ⟨hlength, hitems⟩ hsettled
    have hvs := s.settled_hereditary.list element items hsettled
    have hlast := fun v hv => hitems v hv (hvs v hv)
    refine ⟨⟨items, rfl, hlength ▸ hsize, fun v hv => (hlast v hv).fits⟩, ?_⟩
    rw [Schema.normalValue, Schema.normalItems_eq_self_iff.mpr fun v hv => (hlast v hv).own]
  | set element ih =>
    refine (Reading.setHeader_gives c).bind fun header hsize => ?_
    refine (readItems_gives ih header.size).map ?_
    rintro items ⟨hlength, hitems⟩ hsettled
    have hvs := s.settled_hereditary.set element items hsettled
    have hlast := fun v hv => hitems v hv (hvs v hv)
    refine ⟨⟨items, rfl, hlength ▸ hsize, fun v hv => (hlast v hv).fits⟩, ?_⟩
    rw [Schema.normalValue, Schema.normalItems_eq_self_iff.mpr fun v hv => (hlast v hv).own]
  | map key value ihk ihv =>
    refine (Reading.mapHeader_gives c).bind fun header hsize => ?_
    refine (readEntries_gives ihk ihv header.size).map ?_
    rintro entries ⟨hlength, hentries⟩ hsettled
    have hes := s.settled_hereditary.map key value entries hsettled
    have hkey := fun e he => (hentries e he).1 (hes e he).1
    have hvalue := fun e he => (hentries e he).2 (hes e he).2
    refine ⟨⟨entries, rfl, hlength ▸ hsize, fun e he =>
      ⟨(hkey e he).fits, (hvalue e he).fits⟩⟩, ?_⟩
    rw [Schema.normalValue, Schema.normalEntries_eq_self_iff.mpr fun e he =>
      ⟨(hkey e he).own, (hvalue e he).own⟩]
  | void => exact .pure fun _ => ⟨trivial, rfl⟩

/-- No value of a form is void, besides those of void. -/
theorem Fits.not_void {nested : String → StructValue → Prop} {form : Form} {w : Value}
    (h : form.Fits nested w) (hform : form ≠ .void) : w.isVoid = false := by
  cases form with
  | scalar kind => cases kind <;> cases w <;> first | rfl | exact h.elim
  | struct name =>
    obtain ⟨inner, hinner, -⟩ := h
    cases w with
    | struct n fields => rfl
    | _ => cases hinner
  | list element =>
    obtain ⟨items, rfl, -⟩ := h
    rfl
  | set element =>
    obtain ⟨items, rfl, -⟩ := h
    rfl
  | map key value =>
    obtain ⟨entries, rfl, -⟩ := h
    rfl
  | void => exact absurd rfl hform

end Form

/-! ## Structs that were read -/

namespace Record

variable {s : Schema} {r : Record} {found : List (String × Value)} {v : StructValue}

/-- Each value that was found under the name of a member is sound. -/
def AllSound (s : Schema) (r : Record) (found : List (String × Value)) : Prop :=
  ∀ m ∈ r.sent, ∀ w, found.lookup m.name = some w → s.Sound m.form w

theorem readField_gives {c : WireConfig} {nested : String → Reading StructValue}
    (hnames : (r.members.map (·.name)).Nodup)
    (h : ∀ name, Gives (fun v => s.Sound (.struct name) v.toValue) (nested name))
    (header : Reading.FieldHeader) (hfound : r.AllSound s found) :
    Gives (r.AllSound s) (r.readField c nested header found) := by
  have hskip : Gives (r.AllSound s) (Reading.skip c header.type >>= fun _ => pure found) :=
    (Gives.any _).bind fun _ _ => .pure hfound
  unfold readField
  split
  · rename_i m hm
    unfold Member.readValue
    split
    · split
      · exact .pure hfound
      · refine (Form.read_gives h m.form).map fun w hw m' hm' w' hlookup => ?_
        -- names differ, so what is new under the name of the member is of no other one
        by_cases hname : m'.name = m.name
        · have hmem := List.mem_of_find?_eq_some hm
          cases List.inj_on_of_nodup_map hnames (List.mem_of_mem_filter hm') hmem hname
          rw [lookup_cons_self] at hlookup
          cases hlookup
          exact hw
        · rw [lookup_cons_ne hname] at hlookup
          exact hfound m' hm' w' hlookup
    · exact hskip
  · exact hskip

theorem get?_of_finish (hnames : (r.members.map (·.name)).Nodup) (h : r.finish found = .ok v)
    {m : Member} (hm : m ∈ r.sent) : v.get? m.name = (found.lookup m.name).or m.default := by
  obtain ⟨-, -, rfl⟩ := finish_eq_ok_iff.mp h
  rw [StructValue.get?]
  dsimp only
  rw [lookup_collect hnames, find?_sent hnames hm, Option.bind_some]

section Finished

variable (hr : s.record? r.name = some r) (hnames : (r.members.map (·.name)).Nodup)
  (h : r.finish found = .ok v) (hfound : r.AllSound s found)
  (hsettled : s.Settled (.struct r.name) v.toValue)

include hr hnames h hfound hsettled

/-- What was found is held as it was found. -/
theorem held_of_found {m : Member} (hm : m ∈ r.sent) {w : Value}
    (hw : found.lookup m.name = some w) :
    v.held? m.name = some w ∧ s.Lasts m.form w := by
  have hget : v.get? m.name = some w := by
    rw [get?_of_finish hnames h hm, hw, Option.some_or]
  -- instances inside of what was found are inside of what was finished
  have hlasts := hfound m hm w hw fun name u hu => hsettled name u (.member hr hm hget hu)
  have hform : m.form ≠ .void := by
    intro hvoid
    simp [sent, Member.isVoid, hvoid] at hm
  exact ⟨StructValue.held?_eq_some_iff.mpr ⟨hget, hlasts.fits.not_void hform⟩, hlasts⟩

omit hr hfound hsettled in
/-- What is held was found, or it is a default. -/
theorem found_of_held {m : Member} (hm : m ∈ r.sent) {w : Value} (hw : v.held? m.name = some w) :
    found.lookup m.name = some w ∨ m.Defaulted v w := by
  have hget := (StructValue.held?_eq_some_iff.mp hw).1
  rw [get?_of_finish hnames h hm] at hget
  rcases hlookup : found.lookup m.name with _ | w'
  · rw [hlookup, Option.none_or] at hget
    refine .inr ⟨?_, hget, hw⟩
    by_contra hrequired
    have hset := (finish_eq_ok_iff.mp h).1 m hm (by simpa using hrequired)
    simp [hlookup] at hset
  · rw [hlookup, Option.some_or] at hget
    exact .inl hget

theorem lasts_of_held {m : Member} (hm : m ∈ r.sent) {w : Value}
    (hw : v.held? m.name = some w) : s.Lasts m.form w := by
  rcases found_of_held hnames h hm hw with hlookup | hdefault
  · exact (held_of_found hr hnames h hfound hsettled hm hlookup).2
  · exact (hsettled r.name v (.here r.name v) r hr).lasts m hm w hdefault

theorem normal_of_finish : s.normal r.name v = v := by
  have hmembers : ∀ m ∈ r.sent, (s.normalMember m v.fields).or m.default =
      (found.lookup m.name).or m.default := by
    intro m hm
    rw [s.normalMember_eq]
    rcases hw : v.held? m.name with _ | w
    · rcases hlookup : found.lookup m.name with _ | w'
      · rfl
      · have hheld := (held_of_found hr hnames h hfound hsettled hm hlookup).1
        cases hw.symm.trans hheld
    · have hget := (StructValue.held?_eq_some_iff.mp hw).1
      rw [← get?_of_finish hnames h hm, hget, Option.map_some, Option.some_or,
        (lasts_of_held hr hnames h hfound hsettled hm hw).own]
  obtain ⟨-, -, hv⟩ := finish_eq_ok_iff.mp h
  rw [Schema.normal, hr]
  dsimp only
  rw [collect_congr hmembers, hv]

/-- Of a union exactly one member was found. If another one is held, it has its default, and then
it should be the only one. -/
theorem countP_held_of_finish (hkind : r.kind = .union) :
    r.sent.countP (fun m => (v.held? m.name).isSome) = 1 := by
  have hone := (finish_eq_ok_iff.mp h).2.1 hkind
  apply Nat.le_antisymm
  · by_cases hall : ∀ m ∈ r.sent, (v.held? m.name).isSome → (found.lookup m.name).isSome
    · rw [← hone]
      exact List.countP_mono_left hall
    · push Not at hall
      obtain ⟨m, hm, hset, hunfound⟩ := hall
      obtain ⟨w, hw⟩ := Option.isSome_iff_exists.mp hset
      have hdefault : m.Defaulted v w := by
        rcases found_of_held hnames h hm hw with hlookup | hdefault
        · exact absurd (by rw [hlookup]; rfl) hunfound
        · exact hdefault
      have halone := (hsettled r.name v (.here r.name v) r hr).alone hkind m hm w hdefault
      exact countP_le_one (sent_names_nodup hnames) halone
  · rw [← hone]
    apply List.countP_mono_left
    intro m hm hset
    obtain ⟨w, hw⟩ := Option.isSome_iff_exists.mp hset
    rw [(held_of_found hr hnames h hfound hsettled hm hw).1]
    rfl

theorem conforms_of_finish : r.Conforms s.Conforms v := by
  refine ⟨fun m hm hrequired => ?_, fun hkind => ?_, fun m hm w hw => ?_⟩
  · have hvoid := (hsettled r.name v (.here r.name v) r hr).required_sent m hm hrequired
    have hsent : m ∈ r.sent := List.mem_filter.mpr ⟨hm, by simp [hvoid]⟩
    have hset := (finish_eq_ok_iff.mp h).1 m hsent hrequired
    obtain ⟨w, hw⟩ := Option.isSome_iff_exists.mp hset
    rw [(held_of_found hr hnames h hfound hsettled hsent hw).1]
    rfl
  · have hown := normal_of_finish hr hnames h hfound hsettled
    rw [← countP_sent fun m hm hvoid => Schema.held?_of_void hr hnames hown hm hvoid]
    exact countP_held_of_finish hr hnames h hfound hsettled hkind
  · exact (lasts_of_held hr hnames h hfound hsettled hm hw).fits

end Finished

theorem read_gives {c : WireConfig} {nested : String → Reading StructValue}
    (hr : s.record? r.name = some r) (hnames : (r.members.map (·.name)).Nodup)
    (h : ∀ name, Gives (fun v => s.Sound (.struct name) v.toValue) (nested name)) :
    Gives (fun v => s.Sound (.struct r.name) v.toValue) (r.read Record.finish c nested) := by
  have hnone : r.AllSound s [] := by
    intro m _ w hw
    cases hw
  intro unread v rest hread hsettled
  obtain ⟨found, hfields, hfinish⟩ := read_eq_ok_iff.mp hread
  have hfound : r.AllSound s found :=
    Gives.fields (fun header _ => readField_gives hnames h header) hnone _ _ _ hfields
  have hconforms := conforms_of_finish hr hnames hfinish hfound hsettled
  refine ⟨⟨v, rfl, Schema.conforms_of_record hr hconforms⟩, ?_⟩
  rw [s.normalValue_struct, normal_of_finish hr hnames hfinish hfound hsettled]

end Record

/-- An instance that was read conforms and is its own normal form, where it is settled. The
induction is on the levels of the reader. -/
theorem Schema.readWithin_gives {s : Schema}
    (hnames : ∀ r ∈ s.records, (r.members.map (·.name)).Nodup) (c : WireConfig) (levels : Nat)
    (name : String) :
    Gives (fun v => s.Sound (.struct name) v.toValue)
      (s.readWithin Record.finish c levels name) := by
  induction levels generalizing name with
  | zero => exact .throw _
  | succ levels ih =>
    rw [readWithin]
    split
    · rename_i r hr
      cases name_of_record? hr
      exact Record.read_gives hr (hnames r (mem_of_record? hr)) ih
    · exact .throw _

end Thrift
