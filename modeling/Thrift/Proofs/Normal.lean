-- The normal form of an instance: what is left of it when it was sent and received. Members that
-- are set are kept, the others have their defaults, and everything else is gone.
import Mathlib.Data.List.Basic
import Thrift.Proofs.DirectDecode
import Thrift.Proofs.DirectEncode
import Thrift.Proofs.Lookup

namespace Thrift

/-! ## Normal forms -/

namespace Schema

mutual

/-- The normal form of a value as one of a form. -/
def normalValue (s : Schema) : Form → Value → Value
  | .list element, .list vs => .list (s.normalItems element vs)
  | .set element, .set vs => .set (s.normalItems element vs)
  | .map key value, .map es => .map (s.normalEntries key value es)
  | .struct name, .struct _ fields =>
    match s.record? name with
    | some r => .struct name (r.collect fun m => s.normalMember m fields)
    | none => .struct name []
  | .scalar _, v => v
  | .void, _ => .void
  | _, v => v

def normalItems (s : Schema) (element : Form) : List Value → List Value
  | [] => []
  | v :: vs => s.normalValue element v :: s.normalItems element vs

def normalEntries (s : Schema) (key value : Form) : List (Value × Value) → List (Value × Value)
  | [] => []
  | (k, v) :: es => (s.normalValue key k, s.normalValue value v) :: s.normalEntries key value es

/-- The normal form of the value that fields have for a member. -/
def normalMember (s : Schema) (m : Member) : List (String × Value) → Option Value
  | [] => none
  | (n, v) :: rest =>
    if m.name = n then if v.isVoid then none else some (s.normalValue m.form v)
    else s.normalMember m rest

end

/-- The normal form of an instance as the struct of a name. -/
def normal (s : Schema) (name : String) (v : StructValue) : StructValue :=
  match s.record? name with
  | some r => ⟨name, r.collect fun m => s.normalMember m v.fields⟩
  | none => ⟨name, []⟩

theorem normalValue_struct (s : Schema) (name : String) (v : StructValue) :
    s.normalValue (.struct name) v.toValue = (s.normal name v).toValue := by
  rw [StructValue.toValue, normalValue, normal]
  rcases s.record? name with _ | r <;> rfl

theorem normalMember_eq (s : Schema) (m : Member) (v : StructValue) :
    s.normalMember m v.fields = (v.held? m.name).map (s.normalValue m.form) := by
  refine StructValue.eq_of_held ?_ (fun n w rest => ?_) v
  · rw [normalMember, Option.map_none]
  · rw [normalMember, Option.filter_some]
    rcases w.isVoid <;> rfl

end Schema

/-! ## What is left -/

namespace Record

theorem find?_name_eq_none {ms : List Member} {m : Member} (h : m.name ∉ ms.map (·.name)) :
    ms.find? (·.name == m.name) = none := by
  rw [List.find?_eq_none]
  intro m' hm' heq
  exact h (List.mem_map.mpr ⟨m', hm', beq_iff_eq.mp heq⟩)

theorem lookup_foldl_insert (value : Member → Option Value) {ms : List Member}
    (h : (ms.map (·.name)).Nodup) (set : List (String × Value)) (name : String) :
    (ms.foldl (fun set m =>
      match value m with
      | some v => Fields.insert m.name v set
      | none => set) set).lookup name =
      ((ms.find? (·.name == name)).bind value).or (set.lookup name) := by
  induction ms generalizing set with
  | nil => rfl
  | cons m ms ih =>
    obtain ⟨hm, hms⟩ := List.nodup_cons.mp h
    rw [List.foldl_cons, ih hms]
    by_cases hname : m.name = name
    · subst hname
      rw [find?_name_eq_none hm, List.find?_cons, beq_self_eq_true, Option.bind_none,
        Option.none_or]
      dsimp only
      rw [Option.bind_some]
      rcases value m with _ | v
      · rfl
      · exact Fields.lookup_insert_self m.name v set
    · rw [List.find?_cons_of_neg (by simpa using hname)]
      congr 1
      rcases value m with _ | v
      · rfl
      · exact Fields.lookup_insert_ne (Ne.symm hname) v set

/-- What is collected depends on the values of the members that are sent, and where there is none
on the default. -/
theorem collect_congr {r : Record} {value value' : Member → Option Value}
    (h : ∀ m ∈ r.sent, (value m).or m.default = (value' m).or m.default) :
    r.collect value = r.collect value' :=
  List.foldl_ext _ _ [] fun set m hm => by rw [h m hm]

theorem sent_names_nodup {r : Record} (h : (r.members.map (·.name)).Nodup) :
    (r.sent.map (·.name)).Nodup := h.sublist (List.filter_sublist.map _)

/-- What is collected under a name is the value of its member, else the default. -/
theorem lookup_collect {r : Record} (h : (r.members.map (·.name)).Nodup)
    (value : Member → Option Value) (name : String) :
    (r.collect value).lookup name =
      (r.sent.find? (·.name == name)).bind fun m => (value m).or m.default := by
  have hfold := lookup_foldl_insert (fun m => (value m).or m.default) (sent_names_nodup h) [] name
  refine hfold.trans ?_
  rw [List.lookup_nil, Option.or_none]

end Record

/-- A field of a normal form is the normal form of the value that the member of its name holds,
else the default; a name without a member has no field. -/
theorem Schema.normal_get? {s : Schema} {name : String} {r : Record}
    (hr : s.record? name = some r) (h : (r.members.map (·.name)).Nodup) (v : StructValue)
    (field : String) :
    (s.normal name v).get? field = (r.sent.find? (·.name == field)).bind fun m =>
      ((v.held? m.name).map (s.normalValue m.form)).or m.default := by
  rw [normal, hr, StructValue.get?]
  dsimp only
  rw [Record.lookup_collect h]
  simp only [normalMember_eq]

end Thrift
