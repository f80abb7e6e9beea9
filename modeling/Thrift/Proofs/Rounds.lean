-- Rounds of loops, kept in a log. A logged reading reads what the plain one reads and notes every
-- round of a loop that comes to its end, with the bytes that it found and those that it left.
import Thrift.Proofs.Reading

namespace Thrift

/-! ## Logs -/

/-- What one round of a loop is about. -/
inductive Turn
  /-- A field of a struct, or the end of its fields. -/
  | field
  /-- An element of a container, or an entry of a map, that is read. -/
  | element
  /-- An element or an entry that is passed over, with its tags. -/
  | passed (tags : List WireType)

/-- There is nothing to read but voids, which have no bytes. -/
def Turn.isBlank : Turn → Bool
  | passed tags => tags.all (· == .void)
  | _ => false

/-- Elements and entries count, read or passed over, other than blank ones. -/
def Turn.counts : Turn → Bool
  | field => false
  | element => true
  | passed tags => !tags.all (· == .void)

/-- A round of a loop: what it is about, and the unread bytes before and after it. -/
structure Round where
  turn : Turn
  found : Bytes
  left : Bytes

/-- The round took bytes, unless it is a blank one. -/
def Round.Paid (r : Round) : Prop := r.turn.isBlank = false → r.left.length < r.found.length

/-- The number of elements and entries among rounds. -/
def Round.elements (rounds : List Round) : Nat := rounds.countP (·.turn.counts)

/-- The unread bytes, and the rounds that have ended, the last one first. -/
structure Trace where
  unread : Bytes
  rounds : List Round

/-- A reading that keeps a log. Where it fails, it keeps the rounds that ended before. -/
abbrev Logged := EStateM Fault Trace

namespace Logged

variable {α β σ : Type}

/-- A plain reading, in which no round is noted. -/
def quiet (m : Reading α) : Logged α := fun t =>
  match m t.unread with
  | .ok a rest => .ok a { t with unread := rest }
  | .error e rest => .error e { t with unread := rest }

theorem quiet_ok {m : Reading α} {t : Trace} {a : α} {rest : Bytes} (h : m t.unread = .ok a rest) :
    quiet m t = .ok a { t with unread := rest } := by
  rw [quiet, h]

/-- Notes the run as a round when it succeeds. -/
def round (turn : Turn) (run : Logged α) : Logged α := fun t =>
  match run t with
  | .ok a t' => .ok a { t' with rounds := ⟨turn, t.unread, t'.unread⟩ :: t'.rounds }
  | .error e t' => .error e t'

/-- Runs a reading so many times. -/
def times (body : Logged Unit) : Nat → Logged Unit
  | 0 => pure ()
  | n + 1 => do
    body
    times body n

/-- One header with what stands behind it; none at the end of the struct. -/
def oneField (body : Reading.FieldHeader → σ → Logged σ) (state : σ) : Logged (Option σ) :=
  round .field do
    let header ← quiet Reading.fieldHeader
    if header.type = .stop then pure none else some <$> body header state

/-- Every field is a round, and so is the end of the struct. -/
def fieldsWithin (body : Reading.FieldHeader → σ → Logged σ) : Nat → σ → Logged σ
  | 0, _ => throw (.codegen (.procedure .endlessLoop))
  | budget + 1, state => do
    match ← oneField body state with
    | none => return state
    | some next => fieldsWithin body budget next

def fields (body : Reading.FieldHeader → σ → Logged σ) (state : σ) : Logged σ := do
  fieldsWithin body ((← get).unread.length + 1) state

/-- The rounds that ended in a run, however it ended itself. -/
def roundsOf : EStateM.Result Fault Trace α → List Round
  | .ok _ t => t.rounds
  | .error _ t => t.rounds

/-! ## Without the log -/

/-- How a run ended, without its log. -/
def forget : EStateM.Result Fault Trace α → EStateM.Result Fault Bytes α
  | .ok a t => .ok a t.unread
  | .error e t => .error e t.unread

/-- Without its log, the run is that of the plain reading, whatever was noted before. -/
def Tells (run : Logged α) (m : Reading α) : Prop := ∀ t, forget (run t) = m t.unread

namespace Tells

theorem pure (a : α) : Tells (pure a) (pure a) := fun _ => rfl

theorem throw (e : Fault) : Tells (throw e : Logged α) (throw e) := fun _ => rfl

theorem quiet (m : Reading α) : Tells (quiet m) m := by
  intro t
  unfold Logged.quiet
  rcases m t.unread with ⟨a, rest⟩ | ⟨e, rest⟩ <;> rfl

theorem bind {run : Logged α} {m : Reading α} {f : α → Logged β} {g : α → Reading β}
    (h : Tells run m) (hfg : ∀ a, Tells (f a) (g a)) : Tells (run >>= f) (m >>= g) := by
  intro t
  have ht := h t
  rcases hrun : run t with ⟨a, t'⟩ | ⟨e, t'⟩
  · rw [hrun] at ht
    rw [Steps.bind_ok hrun, Steps.bind_ok ht.symm]
    exact hfg a t'
  · rw [hrun] at ht
    rw [Steps.bind_error hrun, Steps.bind_error ht.symm]
    rfl

theorem map {run : Logged α} {m : Reading α} (h : Tells run m) (f : α → β) :
    Tells (f <$> run) (f <$> m) := by
  rw [map_eq_pure_bind, map_eq_pure_bind]
  exact h.bind fun a => pure (f a)

theorem round {run : Logged α} {m : Reading α} (h : Tells run m) (turn : Turn) :
    Tells (round turn run) m := by
  intro t
  rw [← h t, Logged.round]
  rcases run t with ⟨a, t'⟩ | ⟨e, t'⟩ <;> rfl

theorem times {body : Logged Unit} {body' : Reading Unit} (h : Tells body body') :
    ∀ n, Tells (times body n) (Reading.times body' n)
  | 0 => pure ()
  | n + 1 => h.bind fun _ => times h n

theorem oneField {body : Reading.FieldHeader → σ → Logged σ}
    {body' : Reading.FieldHeader → σ → Reading σ}
    (h : ∀ header state, Tells (body header state) (body' header state)) (state : σ) :
    Tells (oneField body state) (Reading.oneField body' state) := by
  refine ((quiet Reading.fieldHeader).bind fun header => ?_).round .field
  split
  · exact pure none
  · exact (h header state).map some

theorem fieldsWithin {body : Reading.FieldHeader → σ → Logged σ}
    {body' : Reading.FieldHeader → σ → Reading σ}
    (h : ∀ header state, Tells (body header state) (body' header state)) (budget : Nat)
    (state : σ) : Tells (fieldsWithin body budget state) (Reading.fieldsWithin body' budget state) := by
  induction budget generalizing state with
  | zero => exact throw _
  | succ budget ih =>
    have hplain : Reading.fieldsWithin body' (budget + 1) state =
        Reading.oneField body' state >>= fun
          | none => Pure.pure state
          | some next => Reading.fieldsWithin body' budget next := by
      rw [Reading.fieldsWithin_succ, Reading.oneField, bind_assoc]
      congr 1
      funext header
      split
      · rfl
      · rw [map_eq_pure_bind, bind_assoc]
        rfl
    rw [hplain]
    refine (oneField h state).bind fun next => ?_
    cases next with
    | none => exact pure state
    | some next => exact ih next

theorem fields {body : Reading.FieldHeader → σ → Logged σ}
    {body' : Reading.FieldHeader → σ → Reading σ}
    (h : ∀ header state, Tells (body header state) (body' header state)) (state : σ) :
    Tells (fields body state) (Reading.fields body' state) :=
  fun t => fieldsWithin h (t.unread.length + 1) state t

end Tells

end Logged

/-! ## What readings cost -/

namespace Reading

variable {α β : Type}

/-- What the reading succeeds on gets shorter by so many bytes at least. -/
def Costs (n : Nat) (m : Reading α) : Prop :=
  ∀ unread a rest, m unread = .ok a rest → rest.length + n ≤ unread.length

namespace Costs

variable {n k : Nat}

theorem pure (a : α) : Costs 0 (pure a : Reading α) := by
  intro unread b rest h
  obtain ⟨-, rfl⟩ := Steps.pure_eq_ok_iff.mp h
  exact Nat.le_refl _

theorem throw (e : Fault) : Costs n (throw e : Reading α) :=
  fun _ _ _ h => absurd h Steps.throw_ne_ok

theorem mono {m : Reading α} (h : Costs n m) (hle : k ≤ n) : Costs k m :=
  fun unread a rest hr => Nat.le_trans (Nat.add_le_add_left hle _) (h unread a rest hr)

theorem bind {m : Reading α} {f : α → Reading β} (h : Costs n m) (hf : ∀ a, Costs k (f a)) :
    Costs (n + k) (m >>= f) := by
  intro unread b rest hr
  obtain ⟨a, mid, ha, hb⟩ := Steps.bind_eq_ok_iff.mp hr
  have hm := h unread a mid ha
  have hrest := hf a mid b rest hb
  omega

theorem map {m : Reading α} (h : Costs n m) (f : α → β) : Costs n (f <$> m) := by
  rw [map_eq_pure_bind]
  exact h.bind fun a => pure (f a)

theorem take (n : Nat) : Costs n (take n) := by
  intro unread bs rest h
  obtain ⟨rfl, rfl⟩ := take_eq_ok_iff.mp h
  rw [List.length_append]
  omega

theorem of_takes {m : Reading α} (h : Takes m) : Costs 0 m := fun _ _ _ hr => h.length_le hr

theorem natural (width : Nat) : Costs width (natural width) := (take width).map _
theorem byte : Costs 1 byte := (natural 1).map _
theorem i16 : Costs 2 i16 := (natural 2).map _
theorem i32 : Costs 4 i32 := (natural 4).map _
theorem i64 : Costs 8 i64 := (natural 8).map _
theorem double : Costs 8 double := (natural 8).map _
theorem bool : Costs 1 bool := byte.map _

/-- What takes bytes first costs as much, whatever is done behind it. -/
theorem first {m : Reading α} {f : α → Reading β} (h : Costs n m) (hf : ∀ a, Costs 0 (f a)) :
    Costs n (m >>= f) := h.bind hf

theorem size (what : Sized) (limit : Nat) : Costs 4 (size what limit) := by
  rw [size_eq]
  refine i32.first fun n => ?_
  split
  · exact .throw _
  · split
    · exact .throw _
    · exact .pure _

theorem binary (c : WireConfig) : Costs 4 (binary c) :=
  (size _ _).first fun n => of_takes (take_takes n)

theorem string (c : WireConfig) : Costs 4 (string c) := by
  unfold Reading.string
  refine (binary c).first fun bs => ?_
  split
  · exact .pure _
  · exact .throw _

theorem wireType : Costs 1 wireType := fun _ _ _ h => wireType_shorter h

theorem fieldHeader : Costs 1 fieldHeader := fun _ _ _ h => fieldHeader_shorter h

theorem listHeader (c : WireConfig) : Costs 5 (listHeader c) :=
  wireType.bind fun _ => (size _ _).map _

theorem setHeader (c : WireConfig) : Costs 5 (setHeader c) :=
  wireType.bind fun _ => (size _ _).map _

theorem mapHeader (c : WireConfig) : Costs 6 (mapHeader c) :=
  wireType.bind fun _ => wireType.bind fun _ => (size _ _).map _

theorem times {body : Reading Unit} (h : Costs k body) (n : Nat) : Costs (k * n) (times body n) := by
  induction n with
  | zero => exact pure ()
  | succ n ih =>
    rw [Nat.mul_succ, Nat.add_comm]
    exact h.bind fun _ => ih

end Costs

end Reading

/-! ## What rounds cost -/

namespace Logged

variable {α β σ : Type}

/-- The run only adds rounds that are paid. Where it succeeds, what it took pays for one byte for
each new element, and for so many bytes more. -/
structure Pays (spare : Nat) (run : Logged α) : Prop where
  ok : ∀ t a t', run t = .ok a t' → ∃ new, t'.rounds = new ++ t.rounds ∧ (∀ r ∈ new, r.Paid) ∧
    t'.unread.length + Round.elements new + spare ≤ t.unread.length
  error : ∀ t e t', run t = .error e t' → ∃ new, t'.rounds = new ++ t.rounds ∧ ∀ r ∈ new, r.Paid

namespace Pays

variable {n k : Nat}

theorem pure (a : α) : Pays 0 (pure a : Logged α) where
  ok t b t' h := by
    obtain ⟨-, rfl⟩ := Steps.pure_eq_ok_iff.mp h
    exact ⟨[], rfl, fun _ hr => absurd hr List.not_mem_nil, Nat.le_refl _⟩
  error t e t' h := by cases h

theorem throw (e : Fault) : Pays n (throw e : Logged α) where
  ok t a t' h := absurd h Steps.throw_ne_ok
  error t e' t' h := by
    cases h
    exact ⟨[], rfl, fun _ hr => absurd hr List.not_mem_nil⟩

theorem quiet {m : Reading α} (h : Reading.Costs n m) : Pays n (quiet m) where
  ok t a t' hr := by
    unfold Logged.quiet at hr
    split at hr
    · rename_i hm
      cases hr
      exact ⟨[], rfl, fun _ hr => absurd hr List.not_mem_nil, h _ _ _ hm⟩
    · cases hr
  error t e t' hr := by
    unfold Logged.quiet at hr
    split at hr
    · cases hr
    · cases hr
      exact ⟨[], rfl, fun _ hr => absurd hr List.not_mem_nil⟩

theorem mono {run : Logged α} (h : Pays n run) (hle : k ≤ n) : Pays k run where
  ok t a t' hr := by
    obtain ⟨new, hnew, hpaid, hlen⟩ := h.ok t a t' hr
    exact ⟨new, hnew, hpaid, by omega⟩
  error := h.error

theorem bind {run : Logged α} {f : α → Logged β} (h : Pays n run) (hf : ∀ a, Pays k (f a)) :
    Pays (n + k) (run >>= f) where
  ok t b t' hr := by
    obtain ⟨a, mid, ha, hb⟩ := Steps.bind_eq_ok_iff.mp hr
    obtain ⟨new, hnew, hpaid, hlen⟩ := h.ok t a mid ha
    obtain ⟨new', hnew', hpaid', hlen'⟩ := (hf a).ok mid b t' hb
    refine ⟨new' ++ new, ?_, List.forall_mem_append.mpr ⟨hpaid', hpaid⟩, ?_⟩
    · rw [hnew', hnew, List.append_assoc]
    · rw [Round.elements, List.countP_append]
      unfold Round.elements at hlen hlen'
      omega
  error t e t' hr := by
    rcases Steps.bind_eq_error_iff.mp hr with he | ⟨a, mid, ha, he⟩
    · exact h.error t e t' he
    · obtain ⟨new, hnew, hpaid, -⟩ := h.ok t a mid ha
      obtain ⟨new', hnew', hpaid'⟩ := (hf a).error mid e t' he
      refine ⟨new' ++ new, ?_, List.forall_mem_append.mpr ⟨hpaid', hpaid⟩⟩
      rw [hnew', hnew, List.append_assoc]

theorem map {run : Logged α} (h : Pays n run) (f : α → β) : Pays n (f <$> run) := by
  rw [map_eq_pure_bind]
  exact h.bind fun a => pure (f a)

/-- What is paid first is enough, whatever is done behind it. -/
theorem first {run : Logged α} {f : α → Logged β} (h : Pays n run) (hf : ∀ a, Pays 0 (f a)) :
    Pays n (run >>= f) := h.bind hf

/-- The byte of a round that counts comes out of what its run pays for. -/
theorem round {run : Logged α} {turn : Turn} (h : Pays (n + if turn.counts then 1 else 0) run)
    (hpaid : turn.isBlank = false → 0 < n + if turn.counts then 1 else 0) :
    Pays n (round turn run) where
  ok t a t' hr := by
    unfold Logged.round at hr
    split at hr
    · rename_i mid hrun
      cases hr
      obtain ⟨new, hnew, hall, hlen⟩ := h.ok t a mid hrun
      refine ⟨⟨turn, t.unread, mid.unread⟩ :: new, ?_, List.forall_mem_cons.mpr ⟨?_, hall⟩, ?_⟩
      · rw [hnew, List.cons_append]
      · intro hblank
        have := hpaid hblank
        dsimp only
        omega
      · rw [Round.elements, List.countP_cons]
        unfold Round.elements at hlen
        dsimp only
        omega
    · cases hr
  error t e t' hr := by
    unfold Logged.round at hr
    split at hr
    · cases hr
    · rename_i hrun
      cases hr
      exact h.error t e _ hrun

/-- A field takes its header. -/
theorem field {run : Logged α} (h : Pays 1 run) : Pays 1 (Logged.round .field run) :=
  h.round fun _ => Nat.one_pos

/-- An element that is read takes bytes, which pay for it. -/
theorem element {run : Logged α} (h : Pays 1 run) : Pays 0 (Logged.round .element run) := by
  apply Pays.round
  · exact h
  · exact fun _ => Nat.one_pos

/-- An element that is passed over pays for itself when it is not a blank one. -/
theorem passed {run : Logged α} {tags : List WireType}
    (h : Pays (if tags.all (· == .void) then 0 else 1) run) :
    Pays 0 (Logged.round (.passed tags) run) := by
  rcases hblank : tags.all (· == .void) with _ | _
  · rw [hblank] at h
    apply Pays.round
    · rw [Turn.counts, hblank]
      exact h
    · rw [Turn.counts, hblank]
      exact fun _ => Nat.one_pos
  · rw [hblank] at h
    apply Pays.round
    · rw [Turn.counts, hblank]
      exact h
    · rw [Turn.isBlank, hblank]
      exact fun hfalse => absurd hfalse.symm Bool.false_ne_true

theorem times {body : Logged Unit} (h : Pays 0 body) : ∀ n, Pays 0 (times body n)
  | 0 => pure ()
  | n + 1 => h.bind fun _ => times h n

theorem oneField {body : Reading.FieldHeader → σ → Logged σ}
    (h : ∀ header state, Pays 0 (body header state)) (state : σ) : Pays 1 (oneField body state) := by
  refine field ((quiet Reading.Costs.fieldHeader).first fun header => ?_)
  split
  · exact pure none
  · exact (h header state).map some

theorem fieldsWithin {body : Reading.FieldHeader → σ → Logged σ}
    (h : ∀ header state, Pays 0 (body header state)) (budget : Nat) (state : σ) :
    Pays 1 (fieldsWithin body budget state) := by
  induction budget generalizing state with
  | zero => exact throw _
  | succ budget ih =>
    refine (oneField h state).first fun next => ?_
    cases next with
    | none => exact pure state
    | some next => exact (ih next).mono (Nat.zero_le 1)

/-- At least the end of the struct is read. -/
theorem fields {body : Reading.FieldHeader → σ → Logged σ}
    (h : ∀ header state, Pays 0 (body header state)) (state : σ) : Pays 1 (fields body state) where
  ok t := (fieldsWithin h (t.unread.length + 1) state).ok t
  error t := (fieldsWithin h (t.unread.length + 1) state).error t

/-- Every round of a run with a log of its own is paid, and where the run succeeds, its elements
are no more than the bytes that it took. -/
theorem run {run : Logged α} (h : Pays n run) (input : Bytes) :
    (∀ r ∈ roundsOf (run ⟨input, []⟩), r.Paid) ∧
      ∀ a rest, forget (run ⟨input, []⟩) = .ok a rest →
        Round.elements (roundsOf (run ⟨input, []⟩)) + rest.length ≤ input.length := by
  rcases hrun : run ⟨input, []⟩ with ⟨b, t⟩ | ⟨e, t⟩
  · obtain ⟨new, hnew, hpaid, hlen⟩ := h.ok _ _ _ hrun
    rw [List.append_nil] at hnew
    rw [roundsOf, hnew]
    refine ⟨hpaid, fun a rest hforget => ?_⟩
    cases hforget
    dsimp only at hlen
    omega
  · obtain ⟨new, hnew, hpaid⟩ := h.error _ _ _ hrun
    rw [List.append_nil] at hnew
    rw [roundsOf, hnew]
    refine ⟨hpaid, fun a rest hforget => ?_⟩
    cases hforget

/-- Without its log, what pays for bytes costs them. -/
theorem costs {run : Logged α} {m : Reading α} (h : Pays n run) (ht : Tells run m) :
    Reading.Costs n m := by
  intro unread a rest hr
  have hforget := (ht ⟨unread, []⟩).trans hr
  rcases hrun : run ⟨unread, []⟩ with ⟨b, t'⟩ | ⟨e, t'⟩
  · rw [hrun] at hforget
    cases hforget
    obtain ⟨new, -, -, hlen⟩ := h.ok _ _ _ hrun
    dsimp only at hlen
    omega
  · rw [hrun] at hforget
    cases hforget

end Pays

end Logged

end Thrift
