-- The bytes of a value as a schema sends it. They are read off the value alone: no limits, no
-- depth, and of a struct only the members that are declared, sent and set.
import Mathlib.Data.List.Basic
import Thrift.Proofs.DirectEncode
import Thrift.Proofs.Lookup
import Thrift.Proofs.Writing

namespace Thrift

/-! ## Bytes -/

/-- Sizes on the wire are below this. -/
def sizeBound : Nat := 0x80000000

/-- The bytes of a size. -/
def sizeBytes (n : Nat) : Bytes := BigEndian.bytes 4 n

theorem bytes_ofNat {n : Nat} (h : n < sizeBound) :
    BigEndian.bytes 4 (Int32.ofNat n).toUInt32.toNat = sizeBytes n := by
  have hn : (Int32.ofNat n).toUInt32.toNat = n := by
    rw [Int32.toUInt32_ofNat']
    exact UInt32.toNat_ofNat_of_lt (Nat.lt_trans h (by decide))
  rw [hn, sizeBytes]

/-- The bytes of a scalar; texts and blocks stand behind their length. -/
def Value.scalarBytes : Value → Bytes
  | bool b => [if b then 1 else 0]
  | byte v => BigEndian.bytes 1 v.toUInt8.toNat
  | i16 v => BigEndian.bytes 2 v.toUInt16.toNat
  | i32 v => BigEndian.bytes 4 v.toUInt32.toNat
  | i64 v => BigEndian.bytes 8 v.toUInt64.toNat
  | double v => BigEndian.bytes 8 v.bits.toNat
  | string s => sizeBytes (Text.toBytes s).length ++ Text.toBytes s
  | binary bs => sizeBytes bs.length ++ bs
  | _ => []

/-- The tag and the id of a member. -/
def Member.headerBytes (m : Member) : Bytes :=
  m.form.wireType.code :: BigEndian.bytes 2 m.id.toUInt16.toNat

namespace Schema

mutual

/-- The bytes of a value as one of a form. -/
def valueBytes (s : Schema) : Form → Value → Bytes
  | .list element, .list items =>
    element.wireType.code :: sizeBytes items.length ++ s.itemBytes element items
  | .set element, .set items =>
    element.wireType.code :: sizeBytes items.length ++ s.itemBytes element items
  | .map key value, .map entries =>
    key.wireType.code :: value.wireType.code :: sizeBytes entries.length ++
      s.entryBytes key value entries
  | .struct name, .struct _ fields =>
    match s.record? name with
    | some r => (r.sent.flatMap fun m => s.memberBytes m fields) ++ [WireType.stop.code]
    | none => []
  | .scalar _, v => v.scalarBytes
  | .void, _ => []
  | _, _ => []

def itemBytes (s : Schema) (element : Form) : List Value → Bytes
  | [] => []
  | v :: vs => s.valueBytes element v ++ s.itemBytes element vs

def entryBytes (s : Schema) (key value : Form) : List (Value × Value) → Bytes
  | [] => []
  | (k, v) :: es => s.valueBytes key k ++ s.valueBytes value v ++ s.entryBytes key value es

/-- The bytes of a member in fields; none when it is not set. -/
def memberBytes (s : Schema) (m : Member) : List (String × Value) → Bytes
  | [] => []
  | (n, v) :: rest =>
    if m.name = n then if v.isVoid then [] else m.headerBytes ++ s.valueBytes m.form v
    else s.memberBytes m rest

end

/-- The bytes of an instance as the struct of a name. -/
def bytes (s : Schema) (name : String) (v : StructValue) : Bytes :=
  s.valueBytes (.struct name) v.toValue

/-- The bytes of a member that may be held. -/
def heldBytes (s : Schema) (m : Member) : Option Value → Bytes
  | some w => m.headerBytes ++ s.valueBytes m.form w
  | none => []

/-- The bytes of a member are those of the value that is held. -/
theorem memberBytes_eq (s : Schema) (m : Member) (v : StructValue) :
    s.memberBytes m v.fields = s.heldBytes m (v.held? m.name) := by
  refine StructValue.eq_of_held ?_ (fun n w rest => ?_) v
  · rw [memberBytes, heldBytes]
  · rw [memberBytes, Option.filter_some]
    rcases w.isVoid <;> rfl

/-- The bytes of an instance are those of its members in the order of declaration, and a stop. -/
theorem bytes_eq {s : Schema} {name : String} {r : Record} (h : s.record? name = some r)
    (v : StructValue) :
    s.bytes name v = (r.sent.flatMap fun m => s.memberBytes m v.fields) ++
      [WireType.stop.code] := by
  rw [bytes, StructValue.toValue, valueBytes, h]

/-! ## Values that are sent alike -/

mutual

/-- Two values are the same as far as a form of the schema goes. Structs may differ in their own
names, in entries that no member declares, in void entries and in members of the void form. -/
def Alike (s : Schema) : Form → Value → Value → Prop
  | .list element, .list vs, w => ∃ ws, w = .list ws ∧ s.ItemsAlike element vs ws
  | .set element, .set vs, w => ∃ ws, w = .set ws ∧ s.ItemsAlike element vs ws
  | .map key value, .map es, w => ∃ fs, w = .map fs ∧ s.EntriesAlike key value es fs
  | .struct name, .struct _ fields, w =>
    ∃ inner, w.asStruct = some inner ∧ ∀ r, s.record? name = some r →
      ∀ m ∈ r.sent, s.MemberAlike m fields (inner.held? m.name)
  | .void, _, _ => True
  | _, v, w => v = w

def ItemsAlike (s : Schema) (element : Form) : List Value → List Value → Prop
  | [], ws => ws = []
  | v :: vs, ws => ∃ w rest, ws = w :: rest ∧ s.Alike element v w ∧ s.ItemsAlike element vs rest

def EntriesAlike (s : Schema) (key value : Form) :
    List (Value × Value) → List (Value × Value) → Prop
  | [], fs => fs = []
  | (k, v) :: es, fs => ∃ l w rest, fs = (l, w) :: rest ∧ s.Alike key k l ∧ s.Alike value v w ∧
      s.EntriesAlike key value es rest

/-- The value of a member in fields is like another value of it, or there is none of either. -/
def MemberAlike (s : Schema) (m : Member) : List (String × Value) → Option Value → Prop
  | [], w => w = none
  | (n, v) :: rest, w =>
    if m.name = n then
      if v.isVoid then w = none else ∃ u, w = some u ∧ s.Alike m.form v u
    else s.MemberAlike m rest w

end

mutual

/-- Values that are alike have the same bytes. -/
theorem valueBytes_eq_of_alike {s : Schema} (form : Form) (v w : Value)
    (h : s.Alike form v w) : s.valueBytes form v = s.valueBytes form w := by
  cases form with
  | list element =>
    cases v with
    | list vs =>
      rw [Alike] at h
      obtain ⟨ws, rfl, h⟩ := h
      obtain ⟨hlength, hbytes⟩ := itemBytes_eq_of_alike element vs ws h
      rw [valueBytes, valueBytes, hlength, hbytes]
    | _ =>
      simp only [Alike] at h
      rw [h]
  | set element =>
    cases v with
    | set vs =>
      rw [Alike] at h
      obtain ⟨ws, rfl, h⟩ := h
      obtain ⟨hlength, hbytes⟩ := itemBytes_eq_of_alike element vs ws h
      rw [valueBytes, valueBytes, hlength, hbytes]
    | _ =>
      simp only [Alike] at h
      rw [h]
  | map key value =>
    cases v with
    | map es =>
      rw [Alike] at h
      obtain ⟨fs, rfl, h⟩ := h
      obtain ⟨hlength, hbytes⟩ := entryBytes_eq_of_alike key value es fs h
      rw [valueBytes, valueBytes, hlength, hbytes]
    | _ =>
      simp only [Alike] at h
      rw [h]
  | struct name =>
    cases v with
    | struct n fields =>
      rw [Alike] at h
      obtain ⟨inner, hinner, h⟩ := h
      cases w with
      | struct n' fields' =>
        cases hinner
        rw [valueBytes, valueBytes]
        rcases hr : s.record? name with _ | r
        · rfl
        · dsimp only
          rw [List.flatMap_congr fun m hm => (memberBytes_eq_of_alike m fields _
            (h r hr m hm)).trans (memberBytes_eq s m ⟨n', fields'⟩).symm]
      | _ => cases hinner
    | _ =>
      simp only [Alike] at h
      rw [h]
  | scalar kind =>
    simp only [Alike] at h
    rw [h]
  | void => rw [valueBytes, valueBytes]

theorem itemBytes_eq_of_alike {s : Schema} (element : Form) (vs ws : List Value)
    (h : s.ItemsAlike element vs ws) :
    vs.length = ws.length ∧ s.itemBytes element vs = s.itemBytes element ws := by
  cases vs with
  | nil =>
    rw [ItemsAlike] at h
    rw [h]
    exact ⟨rfl, rfl⟩
  | cons v vs =>
    rw [ItemsAlike] at h
    obtain ⟨w, rest, rfl, hv, hrest⟩ := h
    obtain ⟨hlength, hbytes⟩ := itemBytes_eq_of_alike element vs rest hrest
    rw [itemBytes, itemBytes, valueBytes_eq_of_alike element v w hv, hbytes, List.length_cons,
      List.length_cons, hlength]
    exact ⟨rfl, rfl⟩

theorem entryBytes_eq_of_alike {s : Schema} (key value : Form) (es fs : List (Value × Value))
    (h : s.EntriesAlike key value es fs) :
    es.length = fs.length ∧ s.entryBytes key value es = s.entryBytes key value fs := by
  cases es with
  | nil =>
    rw [EntriesAlike] at h
    rw [h]
    exact ⟨rfl, rfl⟩
  | cons e es =>
    obtain ⟨k, v⟩ := e
    rw [EntriesAlike] at h
    obtain ⟨l, w, rest, rfl, hk, hv, hrest⟩ := h
    obtain ⟨hlength, hbytes⟩ := entryBytes_eq_of_alike key value es rest hrest
    rw [entryBytes, entryBytes, valueBytes_eq_of_alike key k l hk,
      valueBytes_eq_of_alike value v w hv, hbytes, List.length_cons, List.length_cons, hlength]
    exact ⟨rfl, rfl⟩

theorem memberBytes_eq_of_alike {s : Schema} (m : Member) (fields : List (String × Value))
    (w : Option Value) (h : s.MemberAlike m fields w) :
    s.memberBytes m fields = s.heldBytes m w := by
  cases fields with
  | nil =>
    rw [MemberAlike] at h
    rw [h, memberBytes, heldBytes]
  | cons e fields =>
    obtain ⟨n, v⟩ := e
    rw [MemberAlike] at h
    rw [memberBytes]
    split at h
    · rename_i hn
      rw [if_pos hn]
      split at h
      · rename_i hv
        rw [if_pos hv, h, heldBytes]
      · rename_i hv
        obtain ⟨u, rfl, hu⟩ := h
        rw [if_neg hv, heldBytes, valueBytes_eq_of_alike m.form v u hu]
    · rename_i hn
      rw [if_neg hn]
      exact memberBytes_eq_of_alike m fields w h

end

end Schema

end Thrift
