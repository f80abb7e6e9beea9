-- Runs of steps that may fail: what the parts of a run did when the run as a whole succeeded.
import Mathlib.Data.List.Perm.Basic

namespace Thrift.Steps

/-! ## Steps with a state -/

section State

variable {ε σ α β : Type}

theorem bind_ok {m : EStateM ε σ α} {s t : σ} {a : α} (h : m s = .ok a t)
    (f : α → EStateM ε σ β) : (m >>= f) s = f a t := by
  simp only [bind, EStateM.bind, h]

theorem bind_error {m : EStateM ε σ α} {s t : σ} {e : ε} (h : m s = .error e t)
    (f : α → EStateM ε σ β) : (m >>= f) s = .error e t := by
  simp only [bind, EStateM.bind, h]

/-- Both steps of a run that succeeds succeed. -/
theorem bind_eq_ok_iff {m : EStateM ε σ α} {f : α → EStateM ε σ β} {s u : σ} {b : β} :
    (m >>= f) s = .ok b u ↔ ∃ a t, m s = .ok a t ∧ f a t = .ok b u := by
  rcases h : m s with ⟨a, t⟩ | ⟨e, t⟩
  · rw [bind_ok h]
    constructor
    · intro hb
      exact ⟨a, t, rfl, hb⟩
    · rintro ⟨_, _, ⟨⟩, hb⟩
      exact hb
  · rw [bind_error h]
    simp

/-- A run that fails fails in one of its steps. -/
theorem bind_eq_error_iff {m : EStateM ε σ α} {f : α → EStateM ε σ β} {s u : σ} {e : ε} :
    (m >>= f) s = .error e u ↔ m s = .error e u ∨ ∃ a t, m s = .ok a t ∧ f a t = .error e u := by
  rcases h : m s with ⟨a, t⟩ | ⟨e', t⟩
  · rw [bind_ok h]
    simp
  · rw [bind_error h]
    simp

theorem map_eq_ok_iff {m : EStateM ε σ α} {f : α → β} {s u : σ} {b : β} :
    (f <$> m) s = .ok b u ↔ ∃ a, m s = .ok a u ∧ f a = b := by
  rw [map_eq_pure_bind, bind_eq_ok_iff]
  constructor
  · rintro ⟨a, t, ha, hb⟩
    cases hb
    exact ⟨a, ha, rfl⟩
  · rintro ⟨a, ha, rfl⟩
    exact ⟨a, u, ha, rfl⟩

theorem map_ok {m : EStateM ε σ α} {s t : σ} {a : α} (h : m s = .ok a t) (f : α → β) :
    (f <$> m) s = .ok (f a) t := map_eq_ok_iff.mpr ⟨a, h, rfl⟩

@[simp] theorem pure_eq_ok_iff {s t : σ} {a b : α} :
    (pure a : EStateM ε σ α) s = .ok b t ↔ a = b ∧ s = t := by
  simp only [pure, EStateM.pure, EStateM.Result.ok.injEq]

@[simp] theorem throw_ne_ok {s t : σ} {e : ε} {b : α} :
    (throw e : EStateM ε σ α) s ≠ .ok b t := by
  intro h
  cases h

end State

/-! ## Steps without a state -/

section Plain

variable {ε α β : Type}

theorem except_bind_eq_ok_iff {m : Except ε α} {f : α → Except ε β} {b : β} :
    (m >>= f) = .ok b ↔ ∃ a, m = .ok a ∧ f a = .ok b := by
  rcases m with e | a
  · constructor
    · intro h
      cases h
    · rintro ⟨_, ⟨⟩, _⟩
  · constructor
    · intro h
      exact ⟨a, rfl, h⟩
    · rintro ⟨_, ⟨⟩, h⟩
      exact h

theorem except_bind_eq_error_iff {m : Except ε α} {f : α → Except ε β} {e : ε} :
    (m >>= f) = .error e ↔ m = .error e ∨ ∃ a, m = .ok a ∧ f a = .error e := by
  rcases m with e' | a
  · constructor
    · intro h
      cases h
      exact .inl rfl
    · rintro (⟨⟨⟩⟩ | ⟨_, ⟨⟩, _⟩)
      rfl
  · constructor
    · intro h
      exact .inr ⟨a, rfl, h⟩
    · rintro (⟨⟨⟩⟩ | ⟨_, ⟨⟩, h⟩)
      exact h

/-- A list of steps succeeds when each step does. -/
theorem mapM_eq_ok_iff {f : α → Except ε β} {as : List α} {bs : List β} :
    as.mapM f = .ok bs ↔ List.Forall₂ (fun a b => f a = .ok b) as bs := by
  induction as generalizing bs with
  | nil =>
    rw [List.mapM_nil, List.forall₂_nil_left_iff]
    constructor
    · intro h
      cases h
      rfl
    · rintro rfl
      rfl
  | cons a as ih =>
    rw [List.mapM_cons, except_bind_eq_ok_iff, List.forall₂_cons_left_iff]
    constructor
    · rintro ⟨b, hb, h⟩
      obtain ⟨bs', hbs, h⟩ := except_bind_eq_ok_iff.mp h
      cases h
      exact ⟨b, bs', hb, ih.mp hbs, rfl⟩
    · rintro ⟨b, bs', hb, hbs, rfl⟩
      exact ⟨b, hb, except_bind_eq_ok_iff.mpr ⟨bs', ih.mpr hbs, rfl⟩⟩

/-- Steps in another order succeed as well and give the same results in another order. -/
theorem mapM_perm {f : α → Except ε β} {as as' : List α} {bs : List β}
    (h : as.Perm as') (hf : as.mapM f = .ok bs) : ∃ bs', as'.mapM f = .ok bs' ∧ bs'.Perm bs := by
  obtain ⟨bs', hbs', hperm⟩ := List.perm_comp_forall₂ h.symm (mapM_eq_ok_iff.mp hf)
  exact ⟨bs', mapM_eq_ok_iff.mpr hbs', hperm⟩

/-- A list of steps succeeds if every step does. -/
theorem mapM_succeeds_iff {f : α → Except ε β} {as : List α} :
    (∃ bs, as.mapM f = .ok bs) ↔ ∀ a ∈ as, ∃ b, f a = .ok b := by
  simp only [mapM_eq_ok_iff]
  induction as with
  | nil => simp
  | cons a as ih => simp [List.forall₂_cons_left_iff, ih]

/-- Steps that each make something and put it to the rest first make everything. -/
theorem foldlM_put_eq_ok_iff {γ : Type} {f : α → Except ε β} {put : γ → β → γ} {as : List α}
    {c r : γ} : as.foldlM (fun c a => do return put c (← f a)) c = .ok r ↔
      ∃ bs, as.mapM f = .ok bs ∧ bs.foldl put c = r := by
  induction as generalizing c with
  | nil =>
    constructor
    · intro h
      cases h
      exact ⟨[], rfl, rfl⟩
    · rintro ⟨bs, hbs, rfl⟩
      cases hbs
      rfl
  | cons a as ih =>
    simp only [List.foldlM_cons, List.mapM_cons, except_bind_eq_ok_iff]
    constructor
    · rintro ⟨_, ⟨b, hb, ⟨⟩⟩, h⟩
      obtain ⟨bs, hbs, rfl⟩ := ih.mp h
      exact ⟨b :: bs, ⟨b, hb, bs, hbs, rfl⟩, rfl⟩
    · rintro ⟨_, ⟨b, hb, bs, hbs, ⟨⟩⟩, rfl⟩
      exact ⟨put c b, ⟨b, hb, rfl⟩, ih.mpr ⟨bs, hbs, rfl⟩⟩

/-- What every step keeps holds after all steps. -/
theorem foldlM_keeps {P : β → Prop} {f : β → α → Except ε β} {as : List α}
    (hf : ∀ a ∈ as, ∀ b b', P b → f b a = .ok b' → P b') {b r : β} (hb : P b)
    (h : as.foldlM f b = .ok r) : P r := by
  induction as generalizing b with
  | nil =>
    cases h
    exact hb
  | cons a as ih =>
    rw [List.foldlM_cons] at h
    obtain ⟨b', hb', h⟩ := except_bind_eq_ok_iff.mp h
    obtain ⟨hfirst, hrest⟩ := List.forall_mem_cons.mp hf
    exact ih hrest (hfirst b b' hb hb') h

/-- Where all steps succeed, each one of them does. -/
theorem foldlM_step {f : β → α → Except ε β} {as : List α} {b r : β} (h : as.foldlM f b = .ok r)
    {a : α} (ha : a ∈ as) : ∃ c c', f c a = .ok c' := by
  induction as generalizing b with
  | nil => cases ha
  | cons a' as ih =>
    rw [List.foldlM_cons] at h
    obtain ⟨b', hb', h⟩ := except_bind_eq_ok_iff.mp h
    rcases List.mem_cons.mp ha with rfl | ha
    · exact ⟨b, b', hb'⟩
    · exact ih h ha

/-- A list of steps fails as one of the steps does. -/
theorem mapM_eq_error {f : α → Except ε β} {as : List α} {e : ε} (h : as.mapM f = .error e) :
    ∃ a ∈ as, f a = .error e := by
  induction as with
  | nil => cases h
  | cons a as ih =>
    rw [List.mapM_cons] at h
    rcases except_bind_eq_error_iff.mp h with ha | ⟨b, -, h⟩
    · exact ⟨a, List.mem_cons_self, ha⟩
    · rcases except_bind_eq_error_iff.mp h with has | ⟨bs, -, h⟩
      · obtain ⟨a', ha', hfail⟩ := ih has
        exact ⟨a', List.mem_cons_of_mem a ha', hfail⟩
      · cases h

/-- Steps one after the other fail as one of them does, behind those that went before. -/
theorem foldlM_eq_error {f : β → α → Except ε β} {as : List α} {b : β} {e : ε}
    (h : as.foldlM f b = .error e) : ∃ c, ∃ a ∈ as, f c a = .error e := by
  induction as generalizing b with
  | nil => cases h
  | cons a as ih =>
    rw [List.foldlM_cons] at h
    rcases except_bind_eq_error_iff.mp h with ha | ⟨c, -, h⟩
    · exact ⟨b, a, List.mem_cons_self, ha⟩
    · obtain ⟨c, a', ha', hfail⟩ := ih h
      exact ⟨c, a', List.mem_cons_of_mem a ha', hfail⟩

end Plain

/-! ## Lists side by side -/

section Lists

variable {α β γ : Type} {R : α → β → Prop} {S : β → γ → Prop} {T : α → γ → Prop}

theorem forall₂_comp (h : ∀ a b c, R a b → S b c → T a c) {as : List α} {bs : List β}
    {cs : List γ} (hr : List.Forall₂ R as bs) (hs : List.Forall₂ S bs cs) :
    List.Forall₂ T as cs := by
  induction hr generalizing cs with
  | nil =>
    cases hs
    exact .nil
  | cons hab _ ih =>
    cases hs with
    | cons hbc hs => exact .cons (h _ _ _ hab hbc) (ih hs)

/-- A list between two others, from what stands between their members. -/
theorem forall₂_split (h : ∀ a c, T a c → ∃ b, R a b ∧ S b c) {as : List α} {cs : List γ}
    (ht : List.Forall₂ T as cs) : ∃ bs, List.Forall₂ R as bs ∧ List.Forall₂ S bs cs := by
  induction ht with
  | nil => exact ⟨[], .nil, .nil⟩
  | cons hac _ ih =>
    obtain ⟨b, hab, hbc⟩ := h _ _ hac
    obtain ⟨bs, hrs, hss⟩ := ih
    exact ⟨b :: bs, .cons hab hrs, .cons hbc hss⟩

theorem forall₂_mem_right {as : List α} {bs : List β} (h : List.Forall₂ R as bs) {b : β}
    (hb : b ∈ bs) : ∃ a ∈ as, R a b := by
  induction h with
  | nil => cases hb
  | @cons a b' as bs hab _ ih =>
    rcases List.mem_cons.mp hb with rfl | hb
    · exact ⟨a, List.mem_cons_self, hab⟩
    · obtain ⟨a', ha', hr⟩ := ih hb
      exact ⟨a', List.mem_cons_of_mem a ha', hr⟩

theorem forall₂_mem_left {as : List α} {bs : List β} (h : List.Forall₂ R as bs) {a : α}
    (ha : a ∈ as) : ∃ b ∈ bs, R a b := forall₂_mem_right h.flip ha

theorem map_eq_of_forall₂ {f : α → γ} {g : β → γ} {as : List α} {bs : List β}
    (h : List.Forall₂ R as bs) (hfg : ∀ a b, R a b → f a = g b) : as.map f = bs.map g := by
  induction h with
  | nil => rfl
  | cons hab _ ih => rw [List.map_cons, List.map_cons, hfg _ _ hab, ih]

/-- What is found in two lists stands side by side as well. -/
theorem find?_of_forall₂ {p : α → Bool} {q : β → Bool} (hpq : ∀ a b, R a b → q b = p a)
    {as : List α} {bs : List β} (h : List.Forall₂ R as bs) :
    Option.Rel R (as.find? p) (bs.find? q) := by
  induction h with
  | nil => exact .none
  | cons hab _ ih =>
    rw [List.find?_cons, List.find?_cons, hpq _ _ hab]
    split
    · exact .some hab
    · exact ih

/-- Folds over lists side by side keep what their steps keep, where both succeed. -/
theorem foldlM_of_forall₂ {ε : Type} {σ τ : Type} {Q : σ → τ → Prop} {f : σ → α → Except ε σ}
    {g : τ → β → Except ε τ}
    (hfg : ∀ a b s s' u u', R a b → Q s u → f s a = .ok s' → g u b = .ok u' → Q s' u')
    {as : List α} {bs : List β} (h : List.Forall₂ R as bs) {s s' : σ} {u u' : τ} (hq : Q s u)
    (hf : as.foldlM f s = .ok s') (hg : bs.foldlM g u = .ok u') : Q s' u' := by
  induction h generalizing s u with
  | nil =>
    cases hf
    cases hg
    exact hq
  | cons hab _ ih =>
    rw [List.foldlM_cons] at hf hg
    obtain ⟨s₁, hs₁, hf⟩ := except_bind_eq_ok_iff.mp hf
    obtain ⟨u₁, hu₁, hg⟩ := except_bind_eq_ok_iff.mp hg
    exact ih (hfg _ _ _ _ _ _ hab hq hs₁ hu₁) hf hg

/-- Steps over lists side by side give lists side by side, where both succeed. -/
theorem mapM_of_forall₂ {ε δ : Type} {Q : γ → δ → Prop} {f : α → Except ε γ} {g : β → Except ε δ}
    (hfg : ∀ a b c d, R a b → f a = .ok c → g b = .ok d → Q c d) {as : List α} {bs : List β}
    (h : List.Forall₂ R as bs) {cs : List γ} {ds : List δ} (hf : as.mapM f = .ok cs)
    (hg : bs.mapM g = .ok ds) : List.Forall₂ Q cs ds := by
  have hleft : List.Forall₂ (fun c b => ∃ a, R a b ∧ f a = .ok c) cs bs :=
    forall₂_comp (fun _ a _ hc hab => ⟨a, hab, hc⟩) (mapM_eq_ok_iff.mp hf).flip h
  refine forall₂_comp ?_ hleft (mapM_eq_ok_iff.mp hg)
  rintro c b d ⟨a, hab, hc⟩ hd
  exact hfg a b c d hab hc hd

/-- Steps over lists side by side give one list, where they give the same. -/
theorem mapM_unique {ε : Type} {f : α → Except ε γ} {g : β → Except ε γ}
    (hfg : ∀ a b c c', R a b → f a = .ok c → g b = .ok c' → c = c') {as : List α} {bs : List β}
    (h : List.Forall₂ R as bs) {cs cs' : List γ} (hf : as.mapM f = .ok cs)
    (hg : bs.mapM g = .ok cs') : cs = cs' := by
  have hsame : List.Forall₂ (· = ·) cs cs' := mapM_of_forall₂ hfg h hf hg
  rwa [List.forall₂_eq_eq_eq] at hsame

/-- Other steps that succeed alike give the same list, and of each member what they tell of it. -/
theorem mapM_ok_of {ε : Type} {f g : α → Except ε β} {Q : β → Prop}
    (h : ∀ a b, f a = .ok b → g a = .ok b ∧ Q b) {as : List α} {bs : List β}
    (hf : as.mapM f = .ok bs) : as.mapM g = .ok bs ∧ ∀ b ∈ bs, Q b := by
  have hs := mapM_eq_ok_iff.mp hf
  constructor
  · exact mapM_eq_ok_iff.mpr (hs.imp fun a b hab => (h a b hab).1)
  · intro b hb
    obtain ⟨a, -, hab⟩ := forall₂_mem_right hs hb
    exact (h a b hab).2

end Lists

end Thrift.Steps
