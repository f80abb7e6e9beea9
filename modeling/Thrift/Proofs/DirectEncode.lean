-- Encoding by the schema alone, without procedures and without bindings.
import Thrift.Machine.Encode
import Thrift.Proofs.Lookup
import Thrift.Proofs.Schema

namespace Thrift

/-- The value of a field that is set. A void value counts as not set. -/
def StructValue.held? (v : StructValue) (field : String) : Option Value :=
  (v.get? field).filter (!·.isVoid)

theorem StructValue.held?_eq_some_iff {v : StructValue} {field : String} {w : Value} :
    v.held? field = some w ↔ v.get? field = some w ∧ w.isVoid = false := by
  unfold held?
  rw [Option.filter_eq_some_iff, Bool.not_eq_true']

theorem StructValue.mem_of_held {v : StructValue} {field : String} {w : Value}
    (h : v.held? field = some w) : (field, w) ∈ v.fields :=
  mem_of_lookup (held?_eq_some_iff.mp h).1

/-- A function that walks along the fields up to the one of a name depends on what is held. -/
theorem StructValue.eq_of_held {β : Type} {f : List (String × Value) → β} {g : Option Value → β}
    {field : String} (hnil : f [] = g none)
    (hcons : ∀ n w rest, f ((n, w) :: rest) =
      if field = n then g ((some w).filter (!·.isVoid)) else f rest) (v : StructValue) :
    f v.fields = g (v.held? field) := by
  obtain ⟨name, fields⟩ := v
  rw [held?, get?]
  dsimp only
  induction fields with
  | nil => exact hnil
  | cons e fields ih =>
    obtain ⟨n, w⟩ := e
    rw [hcons]
    by_cases hn : field = n
    · rw [if_pos hn, hn, lookup_cons_self]
    · rw [if_neg hn, lookup_cons_ne hn, ih]

/-! ## Values -/

namespace Form

open Machine (given mistaken)

/-- So many values, one after the other. -/
def writeItems (item : Value → Writing Unit) : List Value → Writing Unit
  | [] => return
  | v :: vs => do
    item v
    writeItems item vs

/-- So many entries, each key before its value. -/
def writeEntries (key value : Value → Writing Unit) : List (Value × Value) → Writing Unit
  | [] => return
  | (k, v) :: es => do
    key k
    value v
    writeEntries key value es

/-- Writes a value as one of the form; `nested` writes the structs inside of it. -/
def write (nested : Machine.Nested) : Form → Value → Writing Unit
  | scalar kind, v => Machine.writeScalar kind v
  | struct name, v => Machine.writeValue nested (.struct name) v
  | list element, .list items => do
    Writing.elementsHeader element.wireType items.length
    writeItems (element.write nested) items
  | set element, .set items => do
    Writing.elementsHeader element.wireType items.length
    writeItems (element.write nested) items
  | map key value, .map entries => do
    Writing.entriesHeader key.wireType value.wireType entries.length
    writeEntries (key.write nested) (value.write nested) entries
  | list _, v => given (mistaken "list" v) fun _ : Unit => Writing.done ()
  | set _, v => given (mistaken "set" v) fun _ : Unit => Writing.done ()
  | map _ _, v => given (mistaken "map" v) fun _ : Unit => Writing.done ()
  | void, _ => return

end Form

/-! ## Records -/

/-- Writes a member that is set, behind its header. -/
def Member.write (nested : Machine.Nested) (m : Member) (v : StructValue) : Writing Unit :=
  match v.held? m.name with
  | some w => do
    Writing.fieldHeader m.form.wireType m.id
    m.form.write nested w
  | none => return

namespace Record

/-- Exactly one member of a union must be set. -/
def checkUnion (r : Record) (v : StructValue) : Writing Unit :=
  let found := r.members.countP fun m => (v.held? m.name).isSome
  if r.kind = .union ∧ found ≠ 1 then Writing.fail (.fieldCount r.name found) else return

/-- The members must be set, the first one that is not is told. -/
def checkSet (v : StructValue) : List Member → Writing Unit
  | [] => return
  | m :: ms => if (v.held? m.name).isSome then checkSet v ms else Writing.fail (.unsetField m.name)

def writeMembers (nested : Machine.Nested) (v : StructValue) : List Member → Writing Unit
  | [] => return
  | m :: ms => do
    m.write nested v
    writeMembers nested v ms

/-- Writes an instance: first the checks, then the members that are set, in order. -/
def write (nested : Machine.Nested) (r : Record) (v : StructValue) : Writing Unit := do
  r.checkUnion v
  checkSet v (r.members.filter (·.required))
  writeMembers nested v r.sent
  Writing.fieldStop

end Record

namespace Schema

/-- Writes an instance as the struct of a name; the second number is how deep structs may still
be nested. -/
def writeWithin (s : Schema) (maxDepth : Nat) : Nat → String → StructValue → Writing Unit
  | 0, name, _ => Writing.fail (.structDepth name maxDepth)
  | levels + 1, name, v =>
    match s.record? name with
    | some r => r.write (s.writeWithin maxDepth levels) v
    | none => Writing.stop (.codegen (.procedure (.noCodec name)))

/-- Writes an instance as the struct of a name, as the schema tells. -/
def write (s : Schema) (c : WireConfig) (name : String) (v : StructValue) : Writing Unit :=
  s.writeWithin c.maxDepth c.maxDepth name v

end Schema

end Thrift
