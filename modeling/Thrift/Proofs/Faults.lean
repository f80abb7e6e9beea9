-- Faults of writings. For which faults a writing may fail is put together from its parts, from
-- single blocks up to whole records.
import Thrift.Proofs.DirectEncode
import Thrift.Proofs.Writing

namespace Thrift

namespace Writing

variable {α β : Type}

/-- If the writing fails, then for such a fault. -/
def FailsBy (P : Fault → Prop) (w : Writing α) : Prop := ∀ fault, w.outcome = .error fault → P fault

namespace FailsBy

variable {P : Fault → Prop}

theorem pure (a : α) : FailsBy P (Pure.pure a : Writing α) := by
  intro fault h
  cases h

theorem put (bs : Bytes) : FailsBy P (Writing.put bs) := by
  intro fault h
  cases h

theorem fail {cause : ProtocolFault} (hP : P (.protocol cause)) :
    FailsBy P (Writing.fail cause : Writing α) := by
  intro fault h
  cases h
  exact hP

theorem bind {w : Writing α} {f : α → Writing β} (hw : FailsBy P w) (hf : ∀ a, FailsBy P (f a)) :
    FailsBy P (w >>= f) := by
  intro fault h
  rcases ho : w.outcome with fault' | a
  · rw [bind_of_error ho] at h
    cases h
    exact hw _ ho
  · rw [bind_of_ok ho] at h
    exact hf a fault h

/-- Writings that agree fail for the same faults. -/
theorem of_agree {R : α → β → Prop} {w : Writing α} {u : Writing β} (h : Agree R w u)
    (hw : FailsBy P w) : FailsBy P u := by
  intro fault hu
  have hends := h.outcome
  rw [hu] at hends
  generalize hout : w.outcome = x at hends
  cases hends
  exact hw fault hout

/-! ## Blocks and headers -/

theorem fieldHeader (t : WireType) (id : Int16) : FailsBy P (Writing.fieldHeader t id) :=
  bind (put _) fun _ => put _

section Sizes

variable (hsize : ∀ n, P (.protocol (.sizeOverflow n)))

include hsize

theorem size (n : Nat) : FailsBy P (Writing.size n) := by
  unfold Writing.size
  split
  · exact put _
  · exact fail (hsize n)

theorem binary (bs : Bytes) : FailsBy P (Writing.binary bs) := bind (size hsize _) fun _ => put bs

theorem elementsHeader (t : WireType) (n : Nat) : FailsBy P (Writing.elementsHeader t n) :=
  bind (put _) fun _ => size hsize n

theorem entriesHeader (k t : WireType) (n : Nat) : FailsBy P (Writing.entriesHeader k t n) :=
  bind (put _) fun _ => bind (put _) fun _ => size hsize n

end Sizes

/-! ## Elements and records -/

theorem items {item : Value → Writing Unit} {vs : List Value} (h : ∀ v ∈ vs, FailsBy P (item v)) :
    FailsBy P (Form.writeItems item vs) := by
  induction vs with
  | nil => exact pure ()
  | cons v vs ih =>
    obtain ⟨hfirst, hrest⟩ := List.forall_mem_cons.mp h
    exact bind hfirst fun _ => ih hrest

theorem entries {key value : Value → Writing Unit} {es : List (Value × Value)}
    (hk : ∀ e ∈ es, FailsBy P (key e.1)) (h : ∀ e ∈ es, FailsBy P (value e.2)) :
    FailsBy P (Form.writeEntries key value es) := by
  induction es with
  | nil => exact pure ()
  | cons e es ih =>
    obtain ⟨hkey, hkeys⟩ := List.forall_mem_cons.mp hk
    obtain ⟨hfirst, hrest⟩ := List.forall_mem_cons.mp h
    exact bind hkey fun _ => bind hfirst fun _ => ih hkeys hrest

variable {nested : Machine.Nested} {r : Record} {v : StructValue}

theorem checkUnion (hcount : ∀ union n, P (.protocol (.fieldCount union n))) :
    FailsBy P (r.checkUnion v) := by
  unfold Record.checkUnion
  dsimp only
  split
  · exact fail (hcount _ _)
  · exact pure ()

theorem checkSet (hunset : ∀ field, P (.protocol (.unsetField field))) (ms : List Member) :
    FailsBy P (Record.checkSet v ms) := by
  induction ms with
  | nil => exact pure ()
  | cons m ms ih =>
    unfold Record.checkSet
    split
    · exact ih
    · exact fail (hunset _)

theorem members {ms : List Member}
    (h : ∀ m ∈ ms, ∀ w, v.held? m.name = some w → FailsBy P (m.form.write nested w)) :
    FailsBy P (Record.writeMembers nested v ms) := by
  induction ms with
  | nil => exact pure ()
  | cons m ms ih =>
    obtain ⟨hfirst, hrest⟩ := List.forall_mem_cons.mp h
    refine bind ?_ fun _ => ih hrest
    unfold Member.write
    split
    · exact bind (fieldHeader _ _) fun _ => hfirst _ ‹_›
    · exact pure ()

/-- An instance is refused by the checks or by a member that is set. -/
theorem record (hcount : ∀ union n, P (.protocol (.fieldCount union n)))
    (hunset : ∀ field, P (.protocol (.unsetField field)))
    (h : ∀ m ∈ r.sent, ∀ w, v.held? m.name = some w → FailsBy P (m.form.write nested w)) :
    FailsBy P (r.write nested v) :=
  bind (checkUnion hcount) fun _ => bind (checkSet hunset _) fun _ =>
    bind (members h) fun _ => put _

end FailsBy

end Writing

end Thrift
