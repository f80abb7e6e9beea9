-- The loop that gives locals their types. A sweep goes over all insertions of a procedure and is
-- made again as long as some value got a type by it. Every sweep but the last gives a type to one
-- more value, so the loop ends for every procedure, drafted or not.
import Mathlib.Data.List.Basic
import Thrift.Proofs.Lookup
import Thrift.Script.Struct

namespace Thrift.Script

/-! ## Parts of types -/

/-- A step from a container to what it holds. -/
inductive Step
  | key
  | element
deriving DecidableEq, Repr

/-- What a container holds. A typedef is opened to reach its container. -/
def innerType? (t : SymbolTable) (type : FieldType) : Step → Option FieldType
  | .key =>
    match opened t type with
    | .map key _ => some key
    | _ => none
  | .element =>
    match opened t type with
    | .list element => some element
    | .set element => some element
    | .map _ element => some element
    | _ => none

/-- What a type has at a position. The type that is found is not opened. -/
def partType? (t : SymbolTable) : FieldType → List Step → Option FieldType
  | type, [] => some type
  | type, step :: steps => (innerType? t type step).bind (partType? t · steps)

theorem partType?_concat (t : SymbolTable) (type : FieldType) (steps : List Step) (step : Step) :
    partType? t type (steps ++ [step]) = (partType? t type steps).bind (innerType? t · step) := by
  induction steps generalizing type with
  | nil => simp [partType?]
  | cons next steps ih =>
    rw [List.cons_append, partType?, partType?, Option.bind_assoc]
    exact congrArg _ (funext ih)

/-! ## Locals -/

namespace Locals

variable {l : Locals} {name x : String} {type : FieldType}

theorem lookup_bind_self (l : Locals) (name : String) (type : FieldType) :
    (l.bind name type).lookup name = some type := lookup_cons_self name type _

theorem lookup_bind_ne (h : x ≠ name) (l : Locals) (type : FieldType) :
    (l.bind name type).lookup x = l.lookup x := by
  rw [bind, lookup_cons_ne h, lookup_filter_ne h]

/-- The local has a type. -/
def Typed (l : Locals) (x : String) : Prop := (l.lookup x).isSome

theorem typed_bind_iff : (l.bind name type).Typed x ↔ x = name ∨ l.Typed x := by
  unfold Typed
  by_cases h : x = name
  · subst h
    simp [lookup_bind_self]
  · rw [lookup_bind_ne h]
    simp [h]

/-- Each local has one entry. -/
def Single (l : Locals) : Prop := (l.map (·.1)).Nodup

theorem filter_of_not_typed (h : ¬ l.Typed name) : l.filter (·.1 != name) = l := by
  rw [Typed, Option.not_isSome_iff_eq_none, List.lookup_eq_none_iff] at h
  refine List.filter_eq_self.mpr fun p hp => ?_
  rw [bne_comm]
  exact h p hp

theorem Single.bind (h : l.Single) (name : String) (type : FieldType) :
    (l.bind name type).Single := by
  refine List.nodup_cons.mpr ⟨fun hmem => ?_, ?_⟩
  · obtain ⟨p, hp, heq⟩ := List.mem_map.mp hmem
    have hne := (List.mem_filter.mp hp).2
    rw [bne_iff_ne] at hne
    exact hne heq
  · exact List.Nodup.sublist (List.filter_sublist.map _) h

theorem length_bind_of_not_typed (h : ¬ l.Typed name) (type : FieldType) :
    (l.bind name type).length = l.length + 1 := by
  rw [Locals.bind, List.length_cons, filter_of_not_typed h]

/-- No more than the entry of the local is replaced. -/
theorem Single.length_le_bind (h : l.Single) (name : String) (type : FieldType) :
    l.length ≤ (l.bind name type).length := by
  induction l with
  | nil => exact Nat.zero_le _
  | cons p l ih =>
    obtain ⟨hnew, hrest⟩ := List.nodup_cons.mp h
    have hshort := ih hrest
    rw [Locals.bind, List.length_cons] at hshort ⊢
    by_cases hp : p.1 = name
    · have hfree : ¬ Typed l name := by
        rw [Typed, Option.not_isSome_iff_eq_none, List.lookup_eq_none_iff]
        intro q hq
        rw [← hp, bne_iff_ne]
        exact fun heq => hnew (List.mem_map.mpr ⟨q, hq, heq.symm⟩)
      have hothers : (p :: l).filter (·.1 != name) = l := by
        rw [List.filter_cons_of_neg (by simp [hp]), filter_of_not_typed hfree]
      exact Nat.le_of_eq (congrArg (fun l => List.length l + 1) hothers).symm
    · rw [List.filter_cons_of_pos (by simpa using hp), List.length_cons, List.length_cons]
      omega

end Locals

/-! ## One insertion -/

/-- What becomes of the locals when the elements of a container get their types. -/
theorem bindElements_eq (t : SymbolTable) (container : FieldType) (key : Option String)
    (value : String) (l : Locals) : bindElements t container key value l =
      match innerType? t container .element with
      | none => l
      | some element =>
        match key, innerType? t container .key with
        | some key, some keyType => (l.bind key keyType).bind value element
        | _, _ => l.bind value element := by
  unfold bindElements innerType?
  cases opened t container <;> cases key <;> rfl

section Insertions

variable {t : SymbolTable} {l : Locals} {i : Insertion} {container : FieldType}
  {key : Option String} {value x : String}

/-- A type that is found was there before, or it is the one of the key or of the element. -/
theorem lookup_bindElements {type : FieldType}
    (h : (bindElements t container key value l).lookup x = some type) :
    l.lookup x = some type ∨ (x = value ∧ innerType? t container .element = some type) ∨
      (key = some x ∧ innerType? t container .key = some type) := by
  have hbind : ∀ {l : Locals} {name : String} {T : FieldType},
      (l.bind name T).lookup x = some type → (x = name ∧ T = type) ∨ l.lookup x = some type := by
    intro l name T h
    by_cases hx : x = name
    · subst hx
      rw [Locals.lookup_bind_self] at h
      exact .inl ⟨rfl, Option.some.inj h⟩
    · rw [Locals.lookup_bind_ne hx] at h
      exact .inr h
  rw [bindElements_eq] at h
  rcases helement : innerType? t container .element with _ | element
  · rw [helement] at h
    exact .inl h
  · rw [helement] at h
    dsimp only at h
    split at h
    · rename_i k keyType hkey
      rcases hbind h with ⟨rfl, rfl⟩ | h
      · exact .inr (.inl ⟨rfl, rfl⟩)
      · rcases hbind h with ⟨rfl, rfl⟩ | h
        · exact .inr (.inr ⟨rfl, hkey⟩)
        · exact .inl h
    · rcases hbind h with ⟨rfl, rfl⟩ | h
      · exact .inr (.inl ⟨rfl, rfl⟩)
      · exact .inl h

theorem typed_bindElements (h : l.Typed x) : (bindElements t container key value l).Typed x := by
  rw [bindElements_eq]
  split
  · exact h
  · split
    · exact Locals.typed_bind_iff.mpr (.inr (Locals.typed_bind_iff.mpr (.inr h)))
    · exact Locals.typed_bind_iff.mpr (.inr h)

theorem typed_value_bindElements {element : FieldType}
    (h : innerType? t container .element = some element) :
    (bindElements t container key value l).Typed value := by
  rw [bindElements_eq, h]
  dsimp only
  split <;> exact Locals.typed_bind_iff.mpr (.inl rfl)

theorem typed_key_bindElements {k : String} {keyType element : FieldType}
    (hkey : innerType? t container .key = some keyType)
    (h : innerType? t container .element = some element) :
    (bindElements t container (some k) value l).Typed k := by
  rw [bindElements_eq, h, hkey]
  exact Locals.typed_bind_iff.mpr (.inr (Locals.typed_bind_iff.mpr (.inl rfl)))

/-- A value without a type gets one, and one entry more stands in the locals, or nothing changes. -/
theorem bindElements_cases (hl : l.Single) (container : FieldType) (key : Option String)
    (hfree : ¬ l.Typed value) :
    bindElements t container key value l = l ∨
      ((bindElements t container key value l).Typed value ∧
        (bindElements t container key value l).Single ∧
        l.length < (bindElements t container key value l).length) := by
  rw [bindElements_eq]
  split
  · exact .inl rfl
  · rename_i element _
    refine .inr ?_
    split
    · rename_i k keyType _
      refine ⟨Locals.typed_bind_iff.mpr (.inl rfl), (hl.bind _ _).bind _ _, ?_⟩
      by_cases hk : value = k
      · subst hk
        have hgrows := Locals.length_bind_of_not_typed hfree keyType
        have hkeeps := (hl.bind value keyType).length_le_bind value element
        omega
      · have hstill : ¬ (l.bind k keyType).Typed value := fun h =>
          (Locals.typed_bind_iff.mp h).elim hk hfree
        have hgrows := Locals.length_bind_of_not_typed hstill element
        have hkeeps := hl.length_le_bind k keyType
        omega
    · refine ⟨Locals.typed_bind_iff.mpr (.inl rfl), hl.bind _ _, ?_⟩
      have hgrows := Locals.length_bind_of_not_typed hfree element
      omega

theorem typed_bindInsertion (h : l.Typed x) : (bindInsertion t l i).Typed x := by
  unfold bindInsertion
  split
  · exact h
  · split
    · exact typed_bindElements h
    · exact h

end Insertions

/-! ## Sweeps -/

/-- One insertion of a sweep, with a mark that is set once some value got a type. A value that has
a type is passed over. -/
def attempt (t : SymbolTable) (state : Locals × Bool) (i : Insertion) : Locals × Bool :=
  if (state.1.lookup i.value).isSome then state
  else
    match state.1.lookup i.container with
    | some type =>
      let l := bindElements t type i.key i.value state.1
      (l, state.2 || (l.lookup i.value).isSome)
    | none => state

/-- All insertions, one after the other, from a mark that is not set. -/
def sweep (t : SymbolTable) (all : List Insertion) (l : Locals) : Locals × Bool :=
  all.foldl (attempt t) (l, false)

/-- The loop: it makes a number of sweeps, and the last one is the first that sets no mark. -/
inductive Sweeps (t : SymbolTable) (all : List Insertion) : Nat → Locals → Locals → Prop
  | settled {l : Locals} (h : (sweep t all l).2 = false) : Sweeps t all 1 l (sweep t all l).1
  | another {n : Nat} {l l' : Locals} (h : (sweep t all l).2 = true)
      (hnext : Sweeps t all n (sweep t all l).1 l') : Sweeps t all (n + 1) l l'

variable {t : SymbolTable} {all : List Insertion} {l l' : Locals}

theorem attempt_fst (t : SymbolTable) (state : Locals × Bool) (i : Insertion) :
    (attempt t state i).1 = bindInsertion t state.1 i := by
  unfold attempt bindInsertion
  split
  · rfl
  · rcases state.1.lookup i.container with _ | container <;> rfl

/-- Attempts give the locals that the insertions give, mark or no mark. -/
theorem foldl_attempt_fst (t : SymbolTable) (all : List Insertion) (state : Locals × Bool) :
    (all.foldl (attempt t) state).1 = all.foldl (bindInsertion t) state.1 := by
  induction all generalizing state with
  | nil => rfl
  | cons i all ih => rw [List.foldl_cons, List.foldl_cons, ih, attempt_fst]

theorem typed_foldl {x : String} (h : l.Typed x) (all : List Insertion) :
    (all.foldl (bindInsertion t) l).Typed x := by
  induction all generalizing l with
  | nil => exact h
  | cons i all ih => exact ih (typed_bindInsertion h)

/-- Insertions went over locals: some value had no type before and has one now. -/
structure Progress (all : List Insertion) (l l' : Locals) : Prop where
  single : l'.Single
  longer : l.length < l'.length
  value : ∃ i ∈ all, ¬ l.Typed i.value ∧ l'.Typed i.value

/-- An attempt changes nothing, or it sets the mark. -/
theorem attempt_cases (hl : l.Single) (flag : Bool) (i : Insertion) :
    (bindInsertion t l i = l ∧ attempt t (l, flag) i = (l, flag)) ∨
      ((attempt t (l, flag) i).2 = true ∧ Progress [i] l (attempt t (l, flag) i).1) := by
  unfold attempt bindInsertion
  dsimp only
  split
  · exact .inl ⟨rfl, rfl⟩
  · rename_i hfree
    rcases l.lookup i.container with _ | container
    · exact .inl ⟨rfl, rfl⟩
    · rcases bindElements_cases (t := t) hl container i.key hfree with
        hsame | ⟨htyped, hsingle, hlonger⟩
      · refine .inl ⟨hsame, ?_⟩
        dsimp only
        rw [hsame, Option.not_isSome_iff_eq_none.mp hfree, Option.isSome_none, Bool.or_false]
      · refine .inr ⟨?_, hsingle, hlonger, i, List.mem_cons_self .., hfree, htyped⟩
        exact Bool.or_eq_true_iff.mpr (.inr htyped)

/-- Attempts change nothing, and none of them would, or they set the mark. -/
theorem foldl_attempt_cases (hl : l.Single) (all : List Insertion) (flag : Bool) :
    ((∀ i ∈ all, bindInsertion t l i = l) ∧ all.foldl (attempt t) (l, flag) = (l, flag)) ∨
      ((all.foldl (attempt t) (l, flag)).2 = true ∧
        Progress all l (all.foldl (attempt t) (l, flag)).1) := by
  induction all generalizing l flag with
  | nil => exact .inl ⟨fun _ hi => absurd hi List.not_mem_nil, rfl⟩
  | cons i all ih =>
    rw [List.foldl_cons]
    rcases attempt_cases (t := t) hl flag i with ⟨hsame, hi⟩ | ⟨hmark, hi⟩
    · rw [hi]
      rcases ih hl flag with ⟨hrest, hall⟩ | ⟨hmark, hsingle, hlonger, j, hj, hvalue⟩
      · exact .inl ⟨List.forall_mem_cons.mpr ⟨hsame, hrest⟩, hall⟩
      · exact .inr ⟨hmark, hsingle, hlonger, j, List.mem_cons_of_mem i hj, hvalue⟩
    · obtain ⟨hsingle, hlonger, j, hj, hfree, htyped⟩ := hi
      cases List.mem_singleton.mp hj
      refine .inr ?_
      -- What the first attempt gave a type to keeps one in the rest of the sweep.
      have hkept := typed_foldl (t := t) htyped all
      rw [← foldl_attempt_fst t all (attempt t (l, flag) i)] at hkept
      rcases ih hsingle (attempt t (l, flag) i).2 with ⟨-, hall⟩ | ⟨hmark', hsingle', hlonger', -⟩
      · rw [hall]
        exact ⟨hmark, hsingle, hlonger, i, List.mem_cons_self .., hfree, htyped⟩
      · have hgrows := Nat.lt_trans hlonger hlonger'
        exact ⟨hmark', hsingle', hgrows, i, List.mem_cons_self .., hfree, hkept⟩

theorem sweep_cases (hl : l.Single) (all : List Insertion) :
    ((∀ i ∈ all, bindInsertion t l i = l) ∧ sweep t all l = (l, false)) ∨
      ((sweep t all l).2 = true ∧ Progress all l (sweep t all l).1) :=
  foldl_attempt_cases hl all false

/-! ## The end of the loop -/

/-- The insertions whose value has no type yet. -/
def pending (all : List Insertion) (l : Locals) : List Insertion :=
  all.filter fun i => (l.lookup i.value).isNone

theorem pending_lt (hkept : ∀ x, l.Typed x → l'.Typed x) (h : Progress all l l') :
    (pending all l').length < (pending all l).length := by
  have hsub : pending all l' = (pending all l).filter fun i => (l'.lookup i.value).isNone := by
    unfold pending
    rw [List.filter_filter]
    refine List.filter_congr fun i _ => ?_
    rcases hi : l.lookup i.value with _ | type
    · exact (Bool.and_true _).symm
    · obtain ⟨type', htype'⟩ := Option.isSome_iff_exists.mp
        (hkept i.value (Option.isSome_iff_exists.mpr ⟨type, hi⟩))
      rw [htype']
      rfl
  obtain ⟨i, hi, hfree, htyped⟩ := h.value
  rw [hsub]
  refine List.length_filter_lt_length_iff_exists.mpr ⟨i, List.mem_filter.mpr ⟨hi, ?_⟩, ?_⟩
  · exact Option.isNone_iff_eq_none.mpr (Option.not_isSome_iff_eq_none.mp hfree)
  · rw [Option.isNone_iff_eq_none]
    exact Option.isSome_iff_ne_none.mp htyped

/-- With as many rounds as are needed, the loop is followed to its end. -/
theorem sweeps_spread (hl : l.Single) {rounds : Nat} (h : (pending all l).length < rounds) :
    ∃ n ≤ rounds, Sweeps t all n l (spread t all rounds l) := by
  induction rounds generalizing l with
  | zero => exact absurd h (Nat.not_lt_zero _)
  | succ rounds ih =>
    have hnext : all.foldl (bindInsertion t) l = (sweep t all l).1 :=
      (foldl_attempt_fst t all (l, false)).symm
    rw [spread, hnext]
    rcases sweep_cases (t := t) hl all with ⟨-, hsame⟩ | ⟨hmark, hprogress⟩
    · refine ⟨1, Nat.le_add_left 1 rounds, ?_⟩
      have hsettled : Sweeps t all 1 l (sweep t all l).1 := .settled (by rw [hsame])
      rw [hsame] at hsettled ⊢
      simpa using hsettled
    · have hlt := pending_lt (fun x hx => hnext ▸ typed_foldl hx all) hprogress
      obtain ⟨n, hn, hrest⟩ := ih hprogress.single (by omega)
      rw [if_neg (Nat.ne_of_gt hprogress.longer)]
      exact ⟨n + 1, Nat.succ_le_succ hn, .another hmark hrest⟩

theorem single_stagedLocals (c : StructCodec) : (stagedLocals c).Single := by
  unfold stagedLocals
  refine List.foldlRecOn (motive := Locals.Single) _ _ List.nodup_nil fun l hl s _ => ?_
  split
  · split
    · exact hl.bind _ _
    · exact hl
  · exact hl

/-- The loop over the insertions of any procedure ends, with no more sweeps than there are
insertions and one. -/
theorem sweeps_decodeLocals (t : SymbolTable) (c : StructCodec) :
    ∃ n ≤ (insertions c.decode).length + 1,
      Sweeps t (insertions c.decode) n (stagedLocals c) (decodeLocals t c) :=
  sweeps_spread (single_stagedLocals c) (Nat.lt_succ_of_le (List.length_filter_le ..))

namespace Sweeps

variable {n : Nat}

/-- What every insertion keeps holds at the end of the loop. -/
theorem preserves {P : Locals → Prop} (hstep : ∀ i ∈ all, ∀ l, P l → P (bindInsertion t l i))
    (h : Sweeps t all n l l') (hl : P l) : P l' := by
  have hsweep : ∀ {l : Locals}, P l → P (sweep t all l).1 := by
    intro l hl
    rw [sweep, foldl_attempt_fst]
    exact List.foldlRecOn (motive := P) _ _ hl fun l hl i hi => hstep i hi l hl
  induction h with
  | settled => exact hsweep hl
  | another _ _ ih => exact ih (hsweep hl)

/-- At the end of the loop no insertion changes anything. -/
theorem fixed (h : Sweeps t all n l l') (hl : l.Single) :
    ∀ i ∈ all, bindInsertion t l' i = l' := by
  induction h with
  | @settled l hend =>
    rcases sweep_cases (t := t) hl all with ⟨hfixed, hsame⟩ | ⟨hmark, -⟩
    · rw [hsame]
      exact hfixed
    · exact absurd (hend.symm.trans hmark) Bool.false_ne_true
  | @another n l l' hmore _ ih =>
    rcases sweep_cases (t := t) hl all with ⟨-, hsame⟩ | ⟨-, hprogress⟩
    · rw [hsame] at hmore
      cases hmore
    · exact ih hprogress.single

end Sweeps

end Thrift.Script
