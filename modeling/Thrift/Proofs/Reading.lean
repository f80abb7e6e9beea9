-- The laws of readings. A reading that succeeds took its bytes from the front of the input, so
-- the bound that a field loop carries is never met. Two readings agree when they end alike on
-- every input, whatever they carry along.
import Thrift.Proofs.Steps
import Thrift.Wire.Reader

namespace Thrift

namespace Reading

variable {α β σ : Type}

@[simp] theorem fail_ne_ok {cause : ProtocolFault} {unread rest : Bytes} {a : α} :
    (fail cause : Reading α) unread ≠ .ok a rest := Steps.throw_ne_ok

/-! ## Taking from the front -/

/-- What a reading leaves is the end of what it found. -/
def Takes (m : Reading α) : Prop :=
  ∀ unread a rest, m unread = .ok a rest → rest <:+ unread

namespace Takes

theorem pure (a : α) : Takes (pure a : Reading α) := by
  intro unread b rest h
  obtain ⟨-, rfl⟩ := Steps.pure_eq_ok_iff.mp h
  exact List.suffix_rfl

theorem throw (e : Fault) : Takes (throw e : Reading α) :=
  fun _ _ _ h => absurd h Steps.throw_ne_ok

theorem bind {m : Reading α} {f : α → Reading β} (hm : Takes m) (hf : ∀ a, Takes (f a)) :
    Takes (m >>= f) := by
  intro unread b rest h
  obtain ⟨a, mid, ha, hb⟩ := Steps.bind_eq_ok_iff.mp h
  exact (hf a mid b rest hb).trans (hm unread a mid ha)

theorem map {m : Reading α} (hm : Takes m) (f : α → β) : Takes (f <$> m) := by
  rw [map_eq_pure_bind]
  exact hm.bind fun a => pure (f a)

theorem length_le {m : Reading α} (hm : Takes m) {unread rest : Bytes} {a : α}
    (h : m unread = .ok a rest) : rest.length ≤ unread.length := (hm _ _ _ h).length_le

end Takes

theorem take_eq_ok_iff {n : Nat} {unread bs rest : Bytes} :
    take n unread = .ok bs rest ↔ bs.length = n ∧ unread = bs ++ rest := by
  unfold take
  split
  · rename_i hshort
    constructor
    · intro h
      cases h
    · rintro ⟨rfl, rfl⟩
      rw [List.length_append] at hshort
      omega
  · rename_i hlong
    simp only [EStateM.Result.ok.injEq]
    constructor
    · rintro ⟨rfl, rfl⟩
      exact ⟨by simp; omega, (List.take_append_drop n unread).symm⟩
    · rintro ⟨rfl, rfl⟩
      simp

theorem take_takes (n : Nat) : Takes (take n) := by
  intro unread bs rest h
  rw [(take_eq_ok_iff.mp h).2]
  exact List.suffix_append bs rest

/-- The two ways in which a size is refused, and the size else. -/
theorem size_eq (what : Sized) (limit : Nat) : size what limit = i32 >>= fun n =>
    if n < 0 then fail (.negativeSize what n)
    else if limit < n.toInt.toNat then fail (.sizeLimit what n.toInt.toNat limit)
    else pure n.toInt.toNat := by
  unfold size
  congr 1

theorem fieldHeader_eq : fieldHeader = wireType >>= fun type =>
    if type = .stop then pure ⟨.stop, 0⟩ else (fun id => ⟨type, id⟩) <$> i16 := by
  unfold fieldHeader
  congr 1

/-- The loop over fields with its first round written out, for any bound. -/
theorem fieldsWithin_succ (body : FieldHeader → σ → Reading σ) (budget : Nat) (state : σ) :
    fieldsWithin body (budget + 1) state = fieldHeader >>= fun header =>
      if header.type = .stop then pure state
      else body header state >>= fieldsWithin body budget := by
  rw [fieldsWithin]

theorem fieldsWithin_takes {body : FieldHeader → σ → Reading σ} (hh : Takes fieldHeader)
    (h : ∀ header state, Takes (body header state)) (budget : Nat) (state : σ) :
    Takes (fieldsWithin body budget state) := by
  induction budget generalizing state with
  | zero => exact .throw _
  | succ budget ih =>
    rw [fieldsWithin_succ]
    refine hh.bind fun header => ?_
    split
    · exact .pure _
    · exact (h header state).bind ih

/-! ## Laws -/

/-- A law of readings that passes from the parts to the whole. In a loop over fields each round
leaves the end of what it found, without which the bound of the loop could be met. -/
structure Law (P : ∀ {α : Type}, Reading α → Prop) : Prop where
  pure : ∀ {α : Type} (a : α), P (Pure.pure a : Reading α)
  fail : ∀ {α : Type} (cause : ProtocolFault), P (Reading.fail cause : Reading α)
  bind : ∀ {α β : Type} {m : Reading α} {f : α → Reading β}, P m → (∀ a, P (f a)) → P (m >>= f)
  take : ∀ n, P (Reading.take n)
  fields : ∀ {σ : Type} {body : FieldHeader → σ → Reading σ}, P fieldHeader →
    (∀ header state, Takes (body header state)) → (∀ header state, P (body header state)) →
      ∀ state, P (Reading.fields body state)

theorem Takes.law : Law @Takes where
  pure := .pure
  fail _ := .throw _
  bind := .bind
  take := take_takes
  fields hh _ h state unread _ _ hr :=
    fieldsWithin_takes hh h (unread.length + 1) state unread _ _ hr

namespace Law

variable {P : ∀ {α : Type}, Reading α → Prop} (h : Law P)

include h

theorem map {m : Reading α} (hm : P m) (f : α → β) : P (f <$> m) := by
  rw [map_eq_pure_bind]
  exact h.bind hm fun a => h.pure (f a)

theorem discard {m : Reading α} (hm : P m) : P (discard m) := h.map hm _

theorem natural (width : Nat) : P (natural width) := h.map (h.take width) _
theorem byte : P byte := h.map (h.natural 1) _
theorem i16 : P i16 := h.map (h.natural 2) _
theorem i32 : P i32 := h.map (h.natural 4) _
theorem i64 : P i64 := h.map (h.natural 8) _
theorem double : P double := h.map (h.natural 8) _
theorem bool : P bool := h.map h.byte _

theorem size (what : Sized) (limit : Nat) : P (size what limit) := by
  rw [size_eq]
  refine h.bind h.i32 fun n => ?_
  split
  · exact h.fail _
  · split
    · exact h.fail _
    · exact h.pure _

theorem binary (c : WireConfig) : P (binary c) := h.bind (h.size _ _) fun n => h.take n

theorem string (c : WireConfig) : P (string c) := by
  unfold Reading.string
  apply h.bind (h.binary c)
  intro bs
  split
  · exact h.pure _
  · exact h.fail _

theorem wireType : P wireType := by
  unfold Reading.wireType
  apply h.bind h.byte
  intro code
  dsimp only
  split
  · exact h.pure _
  · exact h.fail _

theorem fieldHeader : P fieldHeader := by
  rw [fieldHeader_eq]
  apply h.bind h.wireType
  intro type
  split
  · exact h.pure _
  · exact h.map h.i16 _

theorem listHeader (c : WireConfig) : P (listHeader c) :=
  h.bind h.wireType fun _ => h.map (h.size _ _) _

theorem setHeader (c : WireConfig) : P (setHeader c) :=
  h.bind h.wireType fun _ => h.map (h.size _ _) _

theorem mapHeader (c : WireConfig) : P (mapHeader c) :=
  h.bind h.wireType fun _ => h.bind h.wireType fun _ => h.map (h.size _ _) _

theorem times {body : Reading Unit} (hb : P body) (n : Nat) : P (times body n) := by
  induction n with
  | zero => exact h.pure ()
  | succ n ih => exact h.bind hb fun _ => ih

/-- A loop over fields has the law when its rounds have it. -/
theorem fieldLoop {body : FieldHeader → σ → Reading σ}
    (ht : ∀ header state, Takes (body header state)) (hb : ∀ header state, P (body header state))
    (state : σ) : P (Reading.fields body state) := h.fields h.fieldHeader ht hb state

/-- Values that are passed over, where those inside of them are known to leave the end of what
they find. -/
theorem skipWithin_succ {c : WireConfig} {depth : Nat}
    (ht : ∀ type, Takes (skipWithin c depth type)) (hb : ∀ type, P (skipWithin c depth type))
    (type : WireType) : P (skipWithin c (depth + 1) type) := by
  cases type with
  | stop => exact h.fail _
  | void => exact h.pure _
  | bool => exact h.discard h.bool
  | byte => exact h.discard h.byte
  | double => exact h.discard h.double
  | i16 => exact h.discard h.i16
  | i32 => exact h.discard h.i32
  | i64 => exact h.discard h.i64
  | string => exact h.discard (h.binary c)
  | struct => exact h.fieldLoop (fun header _ => ht header.type) (fun header _ => hb header.type) ()
  | map =>
    apply h.bind (h.mapHeader c)
    intro header
    exact h.times (h.bind (hb header.key) fun _ => hb header.value) header.size
  | set => exact h.bind (h.setHeader c) fun header => h.times (hb header.element) header.size
  | list => exact h.bind (h.listHeader c) fun header => h.times (hb header.element) header.size

end Law

theorem skipWithin_takes (c : WireConfig) (depth : Nat) (type : WireType) :
    Takes (skipWithin c depth type) := by
  induction depth generalizing type with
  | zero => exact .throw _
  | succ depth ih => exact Takes.law.skipWithin_succ ih ih type

theorem skip_takes (c : WireConfig) (type : WireType) : Takes (skip c type) :=
  skipWithin_takes c c.maxDepth type

theorem Law.skipWithin {P : ∀ {α : Type}, Reading α → Prop} (h : Law P) (c : WireConfig)
    (depth : Nat) (type : WireType) : P (skipWithin c depth type) := by
  induction depth generalizing type with
  | zero => exact h.fail _
  | succ depth ih => exact h.skipWithin_succ (skipWithin_takes c depth) ih type

theorem Law.skip {P : ∀ {α : Type}, Reading α → Prop} (h : Law P) (c : WireConfig)
    (type : WireType) : P (skip c type) := h.skipWithin c c.maxDepth type

theorem fields_takes {body : FieldHeader → σ → Reading σ}
    (h : ∀ header state, Takes (body header state)) (state : σ) : Takes (fields body state) :=
  Takes.law.fieldLoop h h state

/-! ## Fields without a bound -/

/-- Every field header costs at least its tag. -/
theorem byte_shorter {unread rest : Bytes} {b : Int8} (h : byte unread = .ok b rest) :
    rest.length < unread.length := by
  obtain ⟨n, hn, -⟩ := Steps.map_eq_ok_iff.mp h
  obtain ⟨bs, hbs, -⟩ := Steps.map_eq_ok_iff.mp hn
  obtain ⟨hlen, rfl⟩ := take_eq_ok_iff.mp hbs
  rw [List.length_append]
  omega

theorem wireType_shorter {unread rest : Bytes} {t : WireType} (h : wireType unread = .ok t rest) :
    rest.length < unread.length := by
  obtain ⟨b, mid, hb, ht⟩ := Steps.bind_eq_ok_iff.mp h
  have hrest : rest.length ≤ mid.length := by
    rcases hc : WireType.ofCode? b.toUInt8 with _ | u
    · simp only [hc] at ht
      exact absurd ht fail_ne_ok
    · simp only [hc] at ht
      exact (Takes.pure u).length_le ht
  exact Nat.lt_of_le_of_lt hrest (byte_shorter hb)

theorem fieldHeader_shorter {unread rest : Bytes} {header : FieldHeader}
    (h : fieldHeader unread = .ok header rest) : rest.length < unread.length := by
  rw [fieldHeader_eq] at h
  obtain ⟨t, mid, ht, hid⟩ := Steps.bind_eq_ok_iff.mp h
  have hrest : rest.length ≤ mid.length := by
    split at hid
    · exact (Takes.pure _).length_le hid
    · exact (Takes.law.i16.map _).length_le hid
  exact Nat.lt_of_le_of_lt hrest (wireType_shorter ht)

/-- Every round takes bytes, so bounds above the number of unread bytes are all the same. -/
theorem fieldsWithin_eq {body : FieldHeader → σ → Reading σ}
    (h : ∀ header state, Takes (body header state)) {b₁ b₂ : Nat} {unread : Bytes}
    (h₁ : unread.length < b₁) (h₂ : unread.length < b₂) (state : σ) :
    fieldsWithin body b₁ state unread = fieldsWithin body b₂ state unread := by
  induction b₁ generalizing b₂ unread state with
  | zero => omega
  | succ b₁ ih =>
    obtain ⟨b₂, rfl⟩ : ∃ b, b₂ = b + 1 := ⟨b₂ - 1, by omega⟩
    rw [fieldsWithin_succ, fieldsWithin_succ]
    rcases hh : fieldHeader unread with ⟨header, mid⟩ | ⟨e, mid⟩
    · rw [Steps.bind_ok hh, Steps.bind_ok hh]
      have hmid := fieldHeader_shorter hh
      split
      · rfl
      · rcases hb : body header state mid with ⟨next, rest⟩ | ⟨e, rest⟩
        · rw [Steps.bind_ok hb, Steps.bind_ok hb]
          have hrest := (h header state).length_le hb
          exact ih (by omega) (by omega) next
        · rw [Steps.bind_error hb, Steps.bind_error hb]
    · rw [Steps.bind_error hh, Steps.bind_error hh]

/-- The loop over fields reads one field and goes on. -/
theorem fields_eq {body : FieldHeader → σ → Reading σ}
    (h : ∀ header state, Takes (body header state)) (state : σ) :
    fields body state = fieldHeader >>= fun header =>
      if header.type = .stop then pure state else body header state >>= fields body := by
  funext unread
  change fieldsWithin body (unread.length + 1) state unread = _
  rw [fieldsWithin_succ]
  rcases hh : fieldHeader unread with ⟨header, mid⟩ | ⟨e, mid⟩
  · rw [Steps.bind_ok hh, Steps.bind_ok hh]
    have hmid := fieldHeader_shorter hh
    split
    · rfl
    · rcases hb : body header state mid with ⟨next, rest⟩ | ⟨e, rest⟩
      · rw [Steps.bind_ok hb, Steps.bind_ok hb]
        have hrest := (h header state).length_le hb
        exact fieldsWithin_eq h (by omega) (by omega) next
      · rw [Steps.bind_error hb, Steps.bind_error hb]
  · rw [Steps.bind_error hh, Steps.bind_error hh]

/-- One header with what stands behind it; none at the end of the struct. -/
def oneField (body : FieldHeader → σ → Reading σ) (state : σ) : Reading (Option σ) :=
  fieldHeader >>= fun header =>
    if header.type = .stop then pure none else some <$> body header state

theorem oneField_shorter {body : FieldHeader → σ → Reading σ}
    (h : ∀ header state, Takes (body header state)) {state next : σ} {unread rest : Bytes}
    (hr : oneField body state unread = .ok (some next) rest) : rest.length < unread.length := by
  obtain ⟨header, mid, hheader, hr⟩ := Steps.bind_eq_ok_iff.mp hr
  have hmid := fieldHeader_shorter hheader
  split at hr
  · cases hr
  · obtain ⟨_, hb, -⟩ := Steps.map_eq_ok_iff.mp hr
    have hrest := (h header state).length_le hb
    omega

theorem fields_eq_oneField {body : FieldHeader → σ → Reading σ}
    (h : ∀ header state, Takes (body header state)) (state : σ) :
    fields body state = oneField body state >>= fun
      | none => pure state
      | some next => fields body next := by
  rw [fields_eq h, oneField, bind_assoc]
  congr 1
  funext header
  split
  · rfl
  · rw [map_eq_pure_bind, bind_assoc]
    rfl

/-! ## What is given -/

/-- Whatever the input, what the reading gives has the property. -/
def Gives (P : α → Prop) (m : Reading α) : Prop := ∀ unread a rest, m unread = .ok a rest → P a

namespace Gives

variable {P : α → Prop} {Q : β → Prop}

theorem pure {a : α} (h : P a) : Gives P (pure a) := by
  intro unread b rest hr
  obtain ⟨rfl, -⟩ := Steps.pure_eq_ok_iff.mp hr
  exact h

theorem throw (e : Fault) : Gives P (throw e) := fun _ _ _ hr => absurd hr Steps.throw_ne_ok

theorem any (m : Reading α) : Gives (fun _ => True) m := fun _ _ _ _ => trivial

theorem imp {P' : α → Prop} {m : Reading α} (h : Gives P m) (hp : ∀ a, P a → P' a) : Gives P' m :=
  fun unread a rest hr => hp a (h unread a rest hr)

theorem bind {m : Reading α} {f : α → Reading β} (h : Gives P m) (hf : ∀ a, P a → Gives Q (f a)) :
    Gives Q (m >>= f) := by
  intro unread b rest hr
  obtain ⟨a, mid, ha, hb⟩ := Steps.bind_eq_ok_iff.mp hr
  exact hf a (h unread a mid ha) mid b rest hb

theorem map {m : Reading α} {f : α → β} (h : Gives P m) (hf : ∀ a, P a → Q (f a)) :
    Gives Q (f <$> m) := by
  intro unread b rest hr
  obtain ⟨a, ha, rfl⟩ := Steps.map_eq_ok_iff.mp hr
  exact hf a (h unread a rest ha)

/-- What every round of a loop over fields keeps is kept by the loop. -/
theorem fields {body : FieldHeader → σ → Reading σ} {P : σ → Prop}
    (h : ∀ header state, P state → Gives P (body header state)) {state : σ} (hs : P state) :
    Gives P (fields body state) := by
  intro unread
  change ∀ a rest, fieldsWithin body (unread.length + 1) state unread = .ok a rest → P a
  generalize unread.length + 1 = budget
  suffices hloop : Gives P (fieldsWithin body budget state) from hloop unread
  induction budget generalizing state with
  | zero => exact throw _
  | succ budget ih =>
    rw [fieldsWithin_succ]
    refine (any fieldHeader).bind fun header _ => ?_
    split
    · exact pure hs
    · exact (h header state hs).bind fun _ => ih

end Gives

/-! ## Agreement -/

/-- Two runs end alike: both with related values, or both with the same fault, and what is left
unread is the same. -/
inductive EndAlike (R : α → β → Prop) :
    EStateM.Result Fault Bytes α → EStateM.Result Fault Bytes β → Prop
  | ok {a : α} {b : β} {rest : Bytes} : R a b → EndAlike R (.ok a rest) (.ok b rest)
  | error {e : Fault} {rest : Bytes} : EndAlike R (.error e rest) (.error e rest)

/-- Two readings end alike on every input. -/
def Agree (R : α → β → Prop) (m : Reading α) (n : Reading β) : Prop :=
  ∀ unread, EndAlike R (m unread) (n unread)

namespace Agree

variable {γ δ : Type} {R : α → β → Prop} {S : γ → δ → Prop}

theorem pure {a : α} {b : β} (h : R a b) : Agree R (pure a) (pure b) := fun _ => .ok h

theorem fail (cause : ProtocolFault) : Agree R (fail cause) (fail cause) := fun _ => .error

theorem refl (m : Reading α) : Agree Eq m m := by
  intro unread
  rcases m unread with ⟨a, rest⟩ | ⟨e, rest⟩
  · exact .ok rfl
  · exact .error

theorem eq {m n : Reading α} (h : Agree Eq m n) : m = n := by
  funext unread
  have hu := h unread
  generalize m unread = x, n unread = y at hu
  cases hu with
  | ok h => rw [h]
  | error => rfl

theorem bind {m : Reading α} {n : Reading β} {f : α → Reading γ} {g : β → Reading δ}
    (h : Agree R m n) (hfg : ∀ a b, R a b → Agree S (f a) (g b)) :
    Agree S (m >>= f) (n >>= g) := by
  intro unread
  have hmn := h unread
  rcases hm : m unread with ⟨a, mid⟩ | ⟨e, mid⟩ <;> rcases hn : n unread with ⟨b, mid'⟩ | ⟨e', mid'⟩
    <;> rw [hm, hn] at hmn <;> cases hmn
  · rw [Steps.bind_ok hm, Steps.bind_ok hn]
    exact hfg a b ‹_› mid
  · rw [Steps.bind_error hm, Steps.bind_error hn]
    exact .error

/-- One side ends with something that reads nothing. -/
theorem bind_pure_left {m : Reading α} {n : Reading β} {f : α → γ} {T : γ → β → Prop}
    (h : Agree R m n) (hf : ∀ a b, R a b → T (f a) b) :
    Agree T (m >>= fun a => Pure.pure (f a)) n := by
  rw [← bind_pure n]
  exact h.bind fun a b hab => pure (hf a b hab)

end Agree

/-! ## Following -/

/-- Wherever the first reading succeeds, the second one does with a related value, and leaves the
same bytes. -/
def Leads (R : α → β → Prop) (m : Reading α) (n : Reading β) : Prop :=
  ∀ unread a rest, m unread = .ok a rest → ∃ b, n unread = .ok b rest ∧ R a b

namespace Leads

variable {γ δ τ : Type} {R : α → β → Prop} {S : γ → δ → Prop}

theorem pure {a : α} {b : β} (h : R a b) : Leads R (pure a) (pure b) := by
  intro unread a' rest ha
  obtain ⟨rfl, rfl⟩ := Steps.pure_eq_ok_iff.mp ha
  exact ⟨b, rfl, h⟩

theorem throw (e : Fault) (n : Reading β) : Leads R (throw e) n :=
  fun _ _ _ h => absurd h Steps.throw_ne_ok

theorem refl (m : Reading α) : Leads Eq m m := fun _ a _ h => ⟨a, h, rfl⟩

theorem bind {m : Reading α} {n : Reading β} {f : α → Reading γ} {g : β → Reading δ}
    (h : Leads R m n) (hfg : ∀ a b, R a b → Leads S (f a) (g b)) :
    Leads S (m >>= f) (n >>= g) := by
  intro unread c rest hc
  obtain ⟨a, mid, ha, hc⟩ := Steps.bind_eq_ok_iff.mp hc
  obtain ⟨b, hb, hab⟩ := h unread a mid ha
  obtain ⟨d, hd, hcd⟩ := hfg a b hab mid c rest hc
  exact ⟨d, (Steps.bind_ok hb g).trans hd, hcd⟩

theorem map {m : Reading α} {n : Reading β} {f : α → γ} {g : β → δ} (h : Leads R m n)
    (hfg : ∀ a b, R a b → S (f a) (g b)) : Leads S (f <$> m) (g <$> n) := by
  rw [map_eq_pure_bind, map_eq_pure_bind]
  exact h.bind fun a b hab => pure (hfg a b hab)

/-- Field loops follow each other when their bodies do. The induction is on the number of unread
bytes, of which every field takes some. -/
theorem fields {Q : σ → τ → Prop} {body : FieldHeader → σ → Reading σ}
    {body' : FieldHeader → τ → Reading τ} (ht : ∀ header state, Takes (body header state))
    (ht' : ∀ header state, Takes (body' header state))
    (h : ∀ header state state', Q state state' → Leads Q (body header state) (body' header state'))
    {state : σ} {state' : τ} (hq : Q state state') :
    Leads Q (Reading.fields body state) (Reading.fields body' state') := by
  intro unread
  induction hn : unread.length using Nat.strongRecOn generalizing unread state state' with
  | ind n ih =>
    intro a rest ha
    rw [fields_eq ht] at ha
    rw [fields_eq ht']
    obtain ⟨header, mid, hh, ha⟩ := Steps.bind_eq_ok_iff.mp ha
    rw [Steps.bind_ok hh]
    have hmid := fieldHeader_shorter hh
    split at ha
    · rename_i hstop
      rw [if_pos hstop]
      exact pure hq mid a rest ha
    · rename_i hstop
      rw [if_neg hstop]
      obtain ⟨next, mid', hnext, ha⟩ := Steps.bind_eq_ok_iff.mp ha
      obtain ⟨next', hnext', hq'⟩ := h header state state' hq mid next mid' hnext
      rw [Steps.bind_ok hnext']
      have hmid' := (ht header state).length_le hnext
      exact ih mid'.length (by omega) hq' mid' rfl a rest ha

theorem times {body body' : Reading Unit} (h : Leads Eq body body') :
    ∀ n, Leads Eq (Reading.times body n) (Reading.times body' n)
  | 0 => pure rfl
  | n + 1 => h.bind fun _ _ _ => times h n

end Leads

end Reading

end Thrift
