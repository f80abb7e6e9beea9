-- Decoding by the schema alone, without procedures and without locals.
import Thrift.Machine.Decode
import Thrift.Proofs.Reading
import Thrift.Proofs.Schema

namespace Thrift

/-! ## Values -/

namespace Form

/-- So many values, one after the other. -/
def readItems (item : Reading Value) : Nat → Reading (List Value)
  | 0 => return []
  | n + 1 => do
    let v ← item
    return v :: (← readItems item n)

/-- So many entries, each key before its value. -/
def readEntries (key value : Reading Value) : Nat → Reading (List (Value × Value))
  | 0 => return []
  | n + 1 => do
    let k ← key
    let v ← value
    return (k, v) :: (← readEntries key value n)

/-- Reads a value of the form; `nested` reads the structs inside of it. -/
def read (c : WireConfig) (nested : String → Reading StructValue) : Form → Reading Value
  | scalar kind => Machine.readScalar c kind
  | struct name => StructValue.toValue <$> nested name
  | list element => do
    let header ← Reading.listHeader c
    return .list (← readItems (element.read c nested) header.size)
  | set element => do
    let header ← Reading.setHeader c
    return .set (← readItems (element.read c nested) header.size)
  | map key value => do
    let header ← Reading.mapHeader c
    return .map (← readEntries (key.read c nested) (value.read c nested) header.size)
  | void => return .void

end Form

/-! ## Records -/

/-- Reads the value behind the header of a member. The latest value of a member comes first
among those that were found. A tag that is not the member's own is passed over. -/
def Member.readValue (c : WireConfig) (nested : String → Reading StructValue) (m : Member)
    (header : Reading.FieldHeader) (found : List (String × Value)) :
    Reading (List (String × Value)) :=
  if header.type = m.form.wireType then
    if m.isVoid then return found
    else do return (m.name, ← m.form.read c nested) :: found
  else do
    Reading.skip c header.type
    return found

namespace Record

/-- Reads what stands behind a header; what no member has the id of is passed over. -/
def readField (c : WireConfig) (nested : String → Reading StructValue) (r : Record)
    (header : Reading.FieldHeader) (found : List (String × Value)) :
    Reading (List (String × Value)) :=
  match r.members.find? (·.id == header.id) with
  | some m => m.readValue c nested header found
  | none => do
    Reading.skip c header.type
    return found

/-- The fields that have a value, else a default, each under its name. -/
def collect (r : Record) (value : Member → Option Value) : List (String × Value) :=
  r.sent.foldl (fun set m =>
    match (value m).or m.default with
    | some v => Fields.insert m.name v set
    | none => set) []

/-- The struct of the values that were found. First every required member must be found, then
exactly one member of a union; defaults come after that. -/
def finish (r : Record) (found : List (String × Value)) : Except ProtocolFault StructValue :=
  let isFound (m : Member) : Bool := (found.lookup m.name).isSome
  if r.sent.any fun m => m.required && !isFound m then .error (.unreadable r.name)
  else
    match r.kind, r.sent.countP isFound with
    | .union, 0 => .error (.emptyUnion r.name)
    | .union, n + 2 => .error (.crowdedUnion r.name (n + 2))
    | _, _ => .ok ⟨r.name, r.collect fun m => found.lookup m.name⟩

end Record

/-- How a record makes a struct of the values that were found. -/
abbrev Finish := Record → List (String × Value) → Except ProtocolFault StructValue

/-- What construction is told of a member. -/
def Member.toInit (m : Member) : FieldInit := ⟨m.name, m.id, m.required, m.default⟩

/-- The struct that construction builds of the values that were found. It takes each finished
field once, which is not the same as `Record.finish` where members share a name. -/
def Record.built : Finish := fun r found =>
  Machine.build r.name r.kind (r.sent.map Member.toInit) found

/-- A struct is built when what is required was found, and of a union exactly one member. -/
theorem Machine.build_eq_ok_iff {struct : String} {kind : StructKind} {inits : List FieldInit}
    {staged : List (String × Value)} {v : StructValue} :
    build struct kind inits staged = .ok v ↔
      (∀ f ∈ inits, f.required = true → (staged.lookup f.name).isSome) ∧
        (kind = .union → inits.countP (fun f => (staged.lookup f.name).isSome) = 1) ∧
          ⟨struct, filled inits staged⟩ = v := by
  unfold build
  dsimp only
  split
  · rename_i hmissing
    obtain ⟨f, hf, hunset⟩ := List.any_eq_true.mp hmissing
    simp only [Bool.and_eq_true, Bool.not_eq_true'] at hunset
    refine iff_of_false (fun h => by cases h) ?_
    rintro ⟨hset, -⟩
    have hfound := hset f hf hunset.1
    rw [hunset.2] at hfound
    cases hfound
  · rename_i hmissing
    have hset : ∀ f ∈ inits, f.required = true → (staged.lookup f.name).isSome := by
      intro f hf hrequired
      by_contra hunset
      apply hmissing
      exact List.any_eq_true.mpr ⟨f, hf, by simp only [hrequired, hunset]; rfl⟩
    generalize inits.countP (fun f => (staged.lookup f.name).isSome) = n
    by_cases hwrong : kind = .union ∧ n ≠ 1
    · obtain ⟨hkind, hn⟩ := hwrong
      refine iff_of_false ?_ fun h => hn (h.2.1 hkind)
      by_cases hzero : n = 0 <;> simp [hkind, hzero, hn]
    · have hone : kind = .union → n = 1 := by
        intro hkind
        by_contra hn
        exact hwrong ⟨hkind, hn⟩
      rw [if_neg fun h => by have hn := hone h.1; omega, if_neg fun h => h.2 (hone h.1)]
      exact ⟨fun h => ⟨hset, hone, Except.ok.inj h⟩, fun h => congrArg Except.ok h.2.2⟩

namespace Record

theorem built_eq_ok_iff {r : Record} {found : List (String × Value)} {v : StructValue} :
    r.built found = .ok v ↔
      (∀ m ∈ r.sent, m.required = true → (found.lookup m.name).isSome) ∧
        (r.kind = .union → r.sent.countP (fun m => (found.lookup m.name).isSome) = 1) ∧
          ⟨r.name, Machine.filled (r.sent.map Member.toInit) found⟩ = v := by
  rw [built, Machine.build_eq_ok_iff, List.forall_mem_map, List.countP_map]
  rfl

/-- Finishing checks the same as construction and differs only in how defaults are taken. -/
theorem finish_eq_map_built (r : Record) (found : List (String × Value)) :
    r.finish found =
      (fun _ => ⟨r.name, r.collect fun m => found.lookup m.name⟩) <$> r.built found := by
  unfold finish built Machine.build
  simp only [List.any_map, List.countP_map, Function.comp_def, Member.toInit]
  split
  · rfl
  · generalize r.sent.countP (fun m => (found.lookup m.name).isSome) = n
    rcases r.kind with _ | _ | _
    all_goals rcases n with _ | _ | n <;> simp

/-- A struct is finished when what is required was found, and of a union exactly one member. -/
theorem finish_eq_ok_iff {r : Record} {found : List (String × Value)} {v : StructValue} :
    r.finish found = .ok v ↔
      (∀ m ∈ r.sent, m.required = true → (found.lookup m.name).isSome) ∧
        (r.kind = .union → r.sent.countP (fun m => (found.lookup m.name).isSome) = 1) ∧
          ⟨r.name, r.collect fun m => found.lookup m.name⟩ = v := by
  rw [finish_eq_map_built]
  constructor
  · intro h
    rcases hbuilt : r.built found with cause | w
    · rw [hbuilt] at h
      cases h
    · rw [hbuilt] at h
      obtain ⟨hset, hone, -⟩ := built_eq_ok_iff.mp hbuilt
      exact ⟨hset, hone, Except.ok.inj h⟩
  · rintro ⟨hset, hone, rfl⟩
    rw [built_eq_ok_iff.mpr ⟨hset, hone, rfl⟩]
    rfl

end Record

/-- Reads the fields of a record up to the end of the struct and finishes the struct. -/
def Record.read (finish : Finish) (c : WireConfig) (nested : String → Reading StructValue)
    (r : Record) : Reading StructValue := do
  match finish r (← Reading.fields (r.readField c nested) []) with
  | .ok v => return v
  | .error cause => Reading.fail cause

theorem Record.read_eq_ok_iff {finish : Finish} {c : WireConfig}
    {nested : String → Reading StructValue} {r : Record} {unread rest : Bytes} {v : StructValue} :
    r.read finish c nested unread = .ok v rest ↔
      ∃ found, Reading.fields (r.readField c nested) [] unread = .ok found rest ∧
        finish r found = .ok v := by
  unfold Record.read
  rw [Steps.bind_eq_ok_iff]
  constructor
  · rintro ⟨found, mid, hfound, hfinish⟩
    rcases h : finish r found with cause | w
    · simp [h] at hfinish
    · simp only [h, Steps.pure_eq_ok_iff] at hfinish
      obtain ⟨rfl, rfl⟩ := hfinish
      exact ⟨found, hfound, h⟩
  · rintro ⟨found, hfound, hfinish⟩
    exact ⟨found, rest, hfound, by simp [hfinish]⟩

namespace Schema

/-- Reads the struct of a name; the first number is how deep structs may still be nested. -/
def readWithin (s : Schema) (finish : Finish) (c : WireConfig) : Nat → String →
    Reading StructValue
  | 0, name => Reading.fail (.structDepth name c.maxDepth)
  | levels + 1, name =>
    match s.record? name with
    | some r => r.read finish c (s.readWithin finish c levels)
    | none => Machine.broken (.noCodec name)

/-- Reads the struct of a name as the schema tells. -/
def read (s : Schema) (c : WireConfig) (name : String) : Reading StructValue :=
  s.readWithin Record.finish c c.maxDepth name

end Schema

/-! ## Laws -/

/-- The structs that a form names. -/
def Form.structs : Form → List String
  | scalar _ => []
  | struct name => [name]
  | list element => element.structs
  | set element => element.structs
  | map key value => key.structs ++ value.structs
  | void => []

/-- The structs that the members of a record name. -/
def Record.structs (r : Record) : List String := r.members.flatMap (·.form.structs)

open Reading (Law Takes)

namespace Reading.Law

variable {P : ∀ {α : Type}, Reading α → Prop} (h : Law P) {c : WireConfig}
  {nested : String → Reading StructValue}

include h

theorem scalar (c : WireConfig) (kind : ScalarKind) : P (Machine.readScalar c kind) := by
  cases kind with
  | bool => exact h.map h.bool _
  | byte => exact h.map h.byte _
  | i16 => exact h.map h.i16 _
  | i32 => exact h.map h.i32 _
  | i64 => exact h.map h.i64 _
  | double => exact h.map h.double _
  | string => exact h.map (h.string c) _
  | binary => exact h.map (h.binary c) _

theorem items {item : Reading Value} (hi : P item) (n : Nat) : P (Form.readItems item n) := by
  induction n with
  | zero => exact h.pure _
  | succ n ih => exact h.bind hi fun _ => h.map ih _

theorem entries {key value : Reading Value} (hk : P key) (hv : P value) (n : Nat) :
    P (Form.readEntries key value n) := by
  induction n with
  | zero => exact h.pure _
  | succ n ih => exact h.bind hk fun _ => h.bind hv fun _ => h.map ih _

/-- Values of a form have the law when the structs that the form names have it. -/
theorem value (form : Form) (hn : ∀ name ∈ form.structs, P (nested name)) :
    P (form.read c nested) := by
  induction form with
  | scalar kind => exact h.scalar c kind
  | struct name => exact h.map (hn name List.mem_cons_self) _
  | list element ih =>
    exact h.bind (h.listHeader c) fun header => h.map (h.items (ih hn) header.size) _
  | set element ih =>
    exact h.bind (h.setHeader c) fun header => h.map (h.items (ih hn) header.size) _
  | map key value ihk ihv =>
    have hk := ihk fun name hname => hn name (List.mem_append_left _ hname)
    have hv := ihv fun name hname => hn name (List.mem_append_right _ hname)
    exact h.bind (h.mapHeader c) fun header => h.map (h.entries hk hv header.size) _
  | void => exact h.pure _

theorem member {m : Member} (hn : ∀ name ∈ m.form.structs, P (nested name)) (header : FieldHeader)
    (found : List (String × Value)) : P (m.readValue c nested header found) := by
  unfold Member.readValue
  split
  · split
    · exact h.pure _
    · exact h.map (h.value m.form hn) _
  · exact h.map (h.skip c header.type) _

theorem field {r : Record} (hn : ∀ name ∈ r.structs, P (nested name)) (header : FieldHeader)
    (found : List (String × Value)) : P (r.readField c nested header found) := by
  unfold Record.readField
  split
  · rename_i m hm
    refine h.member (fun name hname => hn name ?_) header found
    exact List.mem_flatMap.mpr ⟨m, List.mem_of_find?_eq_some hm, hname⟩
  · exact h.map (h.skip c header.type) _

/-- The struct of a record has the law when the structs that its members name have it. -/
theorem record {finish : Finish} {r : Record} (ht : ∀ name, Takes (nested name))
    (hn : ∀ name ∈ r.structs, P (nested name)) : P (r.read finish c nested) := by
  have htakes : ∀ header found, Takes (r.readField c nested header found) :=
    Takes.law.field fun name _ => ht name
  unfold Record.read
  apply h.bind (h.fieldLoop htakes (h.field hn) [])
  intro found
  split
  · exact h.pure _
  · exact h.fail _

end Reading.Law

theorem Record.readField_takes {c : WireConfig} {nested : String → Reading StructValue}
    (h : ∀ name, Takes (nested name)) (r : Record) (header : Reading.FieldHeader)
    (found : List (String × Value)) : Takes (r.readField c nested header found) :=
  Takes.law.field (fun name _ => h name) header found

theorem Schema.readWithin_takes (s : Schema) (finish : Finish) (c : WireConfig) (levels : Nat)
    (name : String) : Takes (s.readWithin finish c levels name) := by
  induction levels generalizing name with
  | zero => exact .throw _
  | succ levels ih =>
    rw [readWithin]
    split
    · exact Takes.law.record ih fun name _ => ih name
    · exact .throw _

/-- Every struct that a record names has a record. -/
def Schema.Closed (s : Schema) : Prop :=
  ∀ r ∈ s.records, ∀ name ∈ r.structs, ∃ r', s.record? name = some r'

/-- In a closed schema, every struct that has a record has the law. -/
theorem Reading.Law.struct {P : ∀ {α : Type}, Reading α → Prop} (h : Law P) {s : Schema}
    (hs : s.Closed) (finish : Finish) (c : WireConfig) (levels : Nat) {name : String} {r : Record}
    (hr : s.record? name = some r) : P (s.readWithin finish c levels name) := by
  induction levels generalizing name r with
  | zero => exact h.fail _
  | succ levels ih =>
    rw [Schema.readWithin, hr]
    apply h.record (s.readWithin_takes finish c levels)
    intro inner hinner
    obtain ⟨r', hr'⟩ := hs r (Schema.mem_of_record? hr) inner hinner
    exact ih hr'

end Thrift
