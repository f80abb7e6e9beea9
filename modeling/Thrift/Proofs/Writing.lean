-- The laws of writings. The bytes of a run are those of its parts, up to the first part that
-- fails. Two writings agree when they give the same bytes and end alike.
import Thrift.Machine.Encode

namespace Thrift

namespace Writing

variable {α β γ δ : Type}

/-! ## Sequences -/

theorem bind_eq (w : Writing α) (f : α → Writing β) : w >>= f = w.andThen f := rfl

theorem bind_of_ok {w : Writing α} {a : α} (h : w.outcome = .ok a) (f : α → Writing β) :
    w >>= f = ⟨w.bytes ++ (f a).bytes, (f a).outcome⟩ := by
  rw [bind_eq, andThen, h]

theorem bind_of_error {w : Writing α} {fault : Fault} (h : w.outcome = .error fault)
    (f : α → Writing β) : w >>= f = ⟨w.bytes, .error fault⟩ := by
  rw [bind_eq, andThen, h]

instance : LawfulMonad Writing := LawfulMonad.mk' Writing
  (by
    intro α w
    change w.andThen done = w
    obtain ⟨bytes, fault | a⟩ := w
    · rfl
    · simp [andThen, done])
  (by
    intro α β a f
    change (done a).andThen f = f a
    simp [andThen, done])
  (by
    intro α β γ w f g
    rcases h : w.outcome with fault | a
    · rw [bind_of_error h, bind_of_error h, bind_of_error rfl]
    · rw [bind_of_ok h, bind_of_ok h]
      rcases hf : (f a).outcome with fault | b
      · rw [bind_of_error hf, bind_of_error rfl]
      · rw [bind_of_ok hf, bind_of_ok rfl, List.append_assoc])

/-! ## Success -/

/-- The writing ends well. -/
def Succeeds (w : Writing Unit) : Prop := w.outcome = .ok ()

theorem wireType_succeeds (t : WireType) : (wireType t).Succeeds := rfl

theorem not_succeeds_stop (fault : Fault) : ¬ (stop fault).Succeeds := by
  intro h
  cases h

theorem not_succeeds_fail (cause : ProtocolFault) : ¬ (fail cause).Succeeds :=
  not_succeeds_stop _

/-- A run succeeds when both of its parts do. -/
theorem succeeds_bind_iff {w : Writing Unit} {f : Unit → Writing Unit} :
    (w >>= f).Succeeds ↔ w.Succeeds ∧ (f ()).Succeeds := by
  unfold Succeeds
  rcases h : w.outcome with fault | ⟨⟩
  · rw [bind_of_error h]
    simp
  · rw [bind_of_ok h]
    simp

/-- What a run writes when its first part succeeds. -/
theorem bytes_bind {w : Writing Unit} (h : w.Succeeds) (f : Unit → Writing Unit) :
    (w >>= f).bytes = w.bytes ++ (f ()).bytes := by
  rw [bind_of_ok h]

theorem size_succeeds_iff {n : Nat} : (size n).Succeeds ↔ n < 0x80000000 := by
  unfold size
  split
  · rename_i hn
    exact ⟨fun _ => hn, fun _ => rfl⟩
  · rename_i hn
    exact ⟨fun h => absurd h (not_succeeds_fail _), fun h => absurd h hn⟩

/-! ## Agreement -/

/-- Two outcomes are alike: both related values, or both the same fault. -/
inductive EndAlike (R : α → β → Prop) : Except Fault α → Except Fault β → Prop
  | ok {a : α} {b : β} : R a b → EndAlike R (.ok a) (.ok b)
  | error {fault : Fault} : EndAlike R (.error fault) (.error fault)

structure Agree (R : α → β → Prop) (w : Writing α) (u : Writing β) : Prop where
  bytes_eq : w.bytes = u.bytes
  outcome : EndAlike R w.outcome u.outcome

namespace Agree

variable {R : α → β → Prop} {S : γ → δ → Prop}

theorem pure {a : α} {b : β} (h : R a b) : Agree R (pure a) (pure b) := ⟨rfl, .ok h⟩

theorem stop (fault : Fault) : Agree R (stop fault) (stop fault) := ⟨rfl, .error⟩

theorem fail (cause : ProtocolFault) : Agree R (fail cause) (fail cause) := stop _

theorem refl (w : Writing α) : Agree Eq w w := by
  refine ⟨rfl, ?_⟩
  rcases w.outcome with fault | a
  · exact .error
  · exact .ok rfl

theorem eq {w u : Writing α} (h : Agree Eq w u) : w = u := by
  obtain ⟨bytes, outcome⟩ := w
  obtain ⟨bytes', outcome'⟩ := u
  obtain ⟨hb, ho⟩ := h
  dsimp only at hb ho
  subst hb
  cases ho with
  | ok h => rw [h]
  | error => rfl

theorem bind {w : Writing α} {u : Writing β} {f : α → Writing γ} {g : β → Writing δ}
    (h : Agree R w u) (hfg : ∀ a b, R a b → Agree S (f a) (g b)) :
    Agree S (w >>= f) (u >>= g) := by
  obtain ⟨hb, ho⟩ := h
  rcases hw : w.outcome with fault | a <;> rcases hu : u.outcome with fault' | b <;>
    rw [hw, hu] at ho <;> cases ho
  · rw [bind_of_error hw, bind_of_error hu]
    exact ⟨hb, .error⟩
  · rw [bind_of_ok hw, bind_of_ok hu]
    have hnext := hfg a b ‹_›
    exact ⟨by rw [hb, hnext.bytes_eq], hnext.outcome⟩

/-- One side ends with something that writes nothing. -/
theorem bind_pure_left {w : Writing α} {u : Writing β} {f : α → γ} {T : γ → β → Prop}
    (h : Agree R w u) (hf : ∀ a b, R a b → T (f a) b) :
    Agree T (w >>= fun a => Pure.pure (f a)) u := by
  rw [← bind_pure u]
  exact h.bind fun a b hab => pure (hf a b hab)

theorem mono {T : α → β → Prop} {w : Writing α} {u : Writing β} (h : Agree R w u)
    (hT : ∀ a b, R a b → T a b) : Agree T w u := by
  refine ⟨h.bytes_eq, ?_⟩
  have ho := h.outcome
  generalize w.outcome = x, u.outcome = y at ho ⊢
  cases ho with
  | ok h => exact .ok (hT _ _ h)
  | error => exact .error

end Agree

end Writing

end Thrift
