-- What drafting gives: statements that load a value of a form into a local, and statements that
-- store the value found at an expression. Whatever is drafted inside a container binds only
-- temporaries that were given out later, so it leaves the container and its key alone.
import Thrift.Proofs.Reading
import Thrift.Proofs.Schema
import Thrift.Proofs.Temporaries

namespace Thrift

/-! ## Bound names -/

namespace Stmt

/-- The names that a statement itself binds. -/
def binds : Stmt → List String
  | readFieldBegin header => [header]
  | readContainerBegin _ metadata => [metadata]
  | read _ dest => [dest]
  | newContainer _ dest => [dest]
  | forEach _ _ key value _ => key.toList ++ [value]
  | _ => []

/-- The names that statements bind at any depth. -/
def boundIn (code : List Stmt) : List String := (walkAll code).flatMap binds

theorem walkAll_append (a b : List Stmt) : walkAll (a ++ b) = walkAll a ++ walkAll b := by
  induction a with
  | nil => rfl
  | cons s a ih => rw [List.cons_append, walkAll, walkAll, ih, List.append_assoc]

@[simp] theorem boundIn_nil : boundIn [] = [] := rfl

@[simp] theorem boundIn_append (a b : List Stmt) : boundIn (a ++ b) = boundIn a ++ boundIn b := by
  unfold boundIn
  rw [walkAll_append, List.flatMap_append]

@[simp] theorem boundIn_read (codec : ValueCodec) (x : String) :
    boundIn [.read codec x] = [x] := rfl

@[simp] theorem boundIn_write (codec : ValueCodec) (source : Expr) :
    boundIn [.write codec source] = [] := rfl

@[simp] theorem boundIn_insert (kind : ContainerKind) (x : String) (key : Option String)
    (v : String) : boundIn [.insert kind x key v] = [] := rfl

@[simp] theorem boundIn_skip (header : String) : boundIn [.skip header] = [] := rfl

@[simp] theorem boundIn_readContainer (kind : ContainerKind) (m i x : String) (body : List Stmt) :
    boundIn (Draft.readContainer kind m i x body) = m :: x :: boundIn body := by
  simp [boundIn, Draft.readContainer, walkAll, walk, binds]

@[simp] theorem boundIn_writeContainer (kind : ContainerKind) (source : Expr)
    (key : Option String) (v : String) (body : List Stmt) :
    boundIn (Draft.writeContainer kind source key v body) = key.toList ++ v :: boundIn body := by
  simp [boundIn, Draft.writeContainer, walkAll, walk, binds]

end Stmt

open Stmt (boundIn)

/-! ## Loading and storing -/

/-- The statements read one value of the form and bind it to a local. The field header is bound
to `header`. -/
inductive Loads (header : String) : Form → String → List Stmt → Prop
  | scalar (kind : ScalarKind) (x : String) : Loads header (.scalar kind) x [.read (.scalar kind) x]
  | struct (name x : String) : Loads header (.struct name) x [.read (.struct name) x]
  | list {e : Form} {x m i v : String} {body : List Stmt} (he : e ≠ .void) (hm : m ≠ x)
      (hx : x ∉ boundIn body) (h : Loads header e v body) :
      Loads header (.list e) x (Draft.readContainer (.list e.wireType) m i x
        (body ++ [.insert (.list e.wireType) x none v]))
  | set {e : Form} {x m i v : String} {body : List Stmt} (he : e ≠ .void) (hm : m ≠ x)
      (hx : x ∉ boundIn body) (h : Loads header e v body) :
      Loads header (.set e) x (Draft.readContainer (.set e.wireType) m i x
        (body ++ [.insert (.set e.wireType) x none v]))
  | map {k e : Form} {x m i kn v : String} {kbody body : List Stmt} (hk : k ≠ .void)
      (he : e ≠ .void) (hm : m ≠ x) (hkn : kn ∉ boundIn body) (hx : x ∉ boundIn (kbody ++ body))
      (hkey : Loads header k kn kbody) (h : Loads header e v body) :
      Loads header (.map k e) x (Draft.readContainer (.map k.wireType e.wireType) m i x
        (kbody ++ body ++ [.insert (.map k.wireType e.wireType) x (some kn) v]))
  | void (x : String) : Loads header .void x [.skip header]

/-- Statements that load a value bind their target. -/
theorem Loads.target_mem {header x : String} {f : Form} {code : List Stmt}
    (h : Loads header f x code) (hf : f ≠ .void) : x ∈ boundIn code := by
  cases h <;> simp at hf ⊢

/-- The statements write the value found at an expression as one of the form. -/
inductive Stores : Form → Expr → List Stmt → Prop
  | scalar (kind : ScalarKind) (source : Expr) :
      Stores (.scalar kind) source [.write (.scalar kind) source]
  | struct (name : String) (source : Expr) :
      Stores (.struct name) source [.write (.struct name) source]
  | list {e : Form} {source : Expr} {v : String} {body : List Stmt} (h : Stores e (.bound v) body) :
      Stores (.list e) source (Draft.writeContainer (.list e.wireType) source none v body)
  | set {e : Form} {source : Expr} {v : String} {body : List Stmt} (h : Stores e (.bound v) body) :
      Stores (.set e) source (Draft.writeContainer (.set e.wireType) source none v body)
  | map {k e : Form} {source : Expr} {kn v : String} {kbody body : List Stmt} (hkv : kn ≠ v)
      (hv : v ∉ boundIn kbody) (hkey : Stores k (.bound kn) kbody)
      (h : Stores e (.bound v) body) :
      Stores (.map k e) source (Draft.writeContainer (.map k.wireType e.wireType) source (some kn) v
        (kbody ++ body))
  | void (source : Expr) : Stores .void source []

/-! ## Tags -/

namespace FieldType

section Inversion

variable {t : SymbolTable} {n : Nat} {key element : FieldType} {f : Form}

theorem formWithin_list (h : (list element).formWithin t (n + 1) = .ok f) :
    ∃ e, element.formWithin t n = .ok e ∧ f = .list e := by
  rw [formWithin] at h
  obtain ⟨_, -, h⟩ := Steps.except_bind_eq_ok_iff.mp h
  obtain ⟨e, he, h⟩ := Steps.except_bind_eq_ok_iff.mp h
  cases h
  exact ⟨e, he, rfl⟩

theorem formWithin_set (h : (set element).formWithin t (n + 1) = .ok f) :
    ∃ e, element.formWithin t n = .ok e ∧ f = .set e := by
  rw [formWithin] at h
  obtain ⟨_, -, h⟩ := Steps.except_bind_eq_ok_iff.mp h
  obtain ⟨e, he, h⟩ := Steps.except_bind_eq_ok_iff.mp h
  cases h
  exact ⟨e, he, rfl⟩

theorem formWithin_map (h : (map key element).formWithin t (n + 1) = .ok f) :
    ∃ k e, key.formWithin t n = .ok k ∧ element.formWithin t n = .ok e ∧ f = .map k e := by
  rw [formWithin] at h
  obtain ⟨_, -, h⟩ := Steps.except_bind_eq_ok_iff.mp h
  obtain ⟨_, -, h⟩ := Steps.except_bind_eq_ok_iff.mp h
  obtain ⟨k, hk, h⟩ := Steps.except_bind_eq_ok_iff.mp h
  obtain ⟨e, he, h⟩ := Steps.except_bind_eq_ok_iff.mp h
  cases h
  exact ⟨k, e, hk, he, rfl⟩

end Inversion

/-- The tag of a type is the tag of its form. -/
theorem wireTypeWithin_form {t : SymbolTable} {n m : Nat} {type : FieldType} {w : WireType}
    {f : Form} (hw : type.wireTypeWithin t n = .ok w) (hf : type.formWithin t m = .ok f) :
    f.wireType = w := by
  induction n generalizing m type with
  | zero => cases hw
  | succ n ih =>
    cases m with
    | zero => cases hf
    | succ m =>
      cases type with
      | identifier name =>
        rw [wireTypeWithin] at hw
        rw [formWithin] at hf
        obtain ⟨shape, hs, hw⟩ := Steps.except_bind_eq_ok_iff.mp hw
        obtain ⟨shape', hs', hf⟩ := Steps.except_bind_eq_ok_iff.mp hf
        cases hs.symm.trans hs'
        cases shape with
        | «alias» underlying => exact ih hw hf
        | _ =>
          cases hw
          cases hf
          rfl
      | list element =>
        cases hw
        obtain ⟨e, -, rfl⟩ := formWithin_list hf
        rfl
      | set element =>
        cases hw
        obtain ⟨e, -, rfl⟩ := formWithin_set hf
        rfl
      | map key value =>
        cases hw
        obtain ⟨k, e, -, -, rfl⟩ := formWithin_map hf
        rfl
      | _ =>
        cases hw
        cases hf
        rfl

/-- An element of a container is no void, and its tag is the tag of its form. -/
theorem elementType_form {t : SymbolTable} {m : Nat} {container element : FieldType}
    {w : WireType} {e : Form} (hw : container.elementType t element = .ok w)
    (he : element.formWithin t m = .ok e) : e.wireType = w ∧ e ≠ .void := by
  rw [elementType] at hw
  obtain ⟨u, hu, hw⟩ := Steps.except_bind_eq_ok_iff.mp hw
  have htag := wireTypeWithin_form hu he
  have hne : u ≠ .void := by
    rintro rfl
    cases hw
  have huw : u = w := by
    cases u <;> first | exact absurd rfl hne | exact Except.ok.inj hw
  refine ⟨htag.trans huw, ?_⟩
  rintro rfl
  exact hne htag.symm

end FieldType

/-! ## Drafting -/

namespace Draft

/-- How many names were given out. -/
def count (st : DraftState) : Nat := st.names.stems.length

/-- One state follows another when only names were given out in between. -/
structure Follows (st st' : DraftState) : Prop where
  header_eq : st'.header = st.header
  excess_eq : st'.excess = st.excess
  count_le : count st ≤ count st'

/-- The name was given out between two states. -/
def Between (st st' : DraftState) (name : String) : Prop :=
  ∃ stem n, name = Names.temporary stem n ∧ count st < n ∧ n ≤ count st'

/-- No name that is given out from a state on is this one. -/
def Older (st : DraftState) (name : String) : Prop :=
  ∀ stem n, count st < n → name ≠ Names.temporary stem n

/-- The state after one more name. -/
def issue (st : DraftState) (stem : String) : DraftState :=
  { st with names := ⟨stem :: st.names.stems⟩ }

theorem fresh_eq_ok_iff {stem x : String} {st st' : DraftState} :
    fresh stem st = .ok x st' ↔ x = Names.temporary stem (count st + 1) ∧ st' = issue st stem := by
  change EStateM.Result.ok (Names.temporary stem (count st + 1)) (issue st stem) = _ ↔ _
  rw [EStateM.Result.ok.injEq, eq_comm, @eq_comm _ (issue st stem)]

theorem ofExcept_eq_ok_iff {α : Type} {r : Except CodegenError α} {a : α} {st st' : DraftState} :
    ofExcept r st = .ok a st' ↔ r = .ok a ∧ st = st' := by
  rcases r with e | b
  · simp [ofExcept]
  · simp [ofExcept]

theorem count_issue (st : DraftState) (stem : String) : count (issue st stem) = count st + 1 := rfl

theorem follows_issue (st : DraftState) (stem : String) : Follows st (issue st stem) :=
  ⟨rfl, rfl, Nat.le_succ _⟩

theorem Follows.refl (st : DraftState) : Follows st st := ⟨rfl, rfl, Nat.le_refl _⟩

theorem Follows.trans {a b c : DraftState} (h : Follows a b) (h' : Follows b c) : Follows a c :=
  ⟨h'.header_eq.trans h.header_eq, h'.excess_eq.trans h.excess_eq, Nat.le_trans h.count_le h'.count_le⟩

theorem Between.mono {a b c d : DraftState} {x : String} (h : Between b c x)
    (hab : count a ≤ count b) (hcd : count c ≤ count d) : Between a d x := by
  obtain ⟨stem, n, hx, hn, hn'⟩ := h
  exact ⟨stem, n, hx, by omega, by omega⟩

/-- What was given out so far is not given out again. -/
theorem older_temporary {st : DraftState} {stem : String} {n : Nat} (h : n ≤ count st) :
    Older st (Names.temporary stem n) := by
  intro stem' n' hn' heq
  have := Names.temporary_number heq
  omega

theorem Older.not_between {st st' : DraftState} {x : String} (h : Older st x) :
    ¬ Between st st' x := by
  rintro ⟨stem, n, hx, hn, -⟩
  exact h stem n hn hx

theorem Older.mono {st st' : DraftState} {x : String} (h : Older st x)
    (hle : count st ≤ count st') : Older st' x := fun stem n hn => h stem n (by omega)

/-- What drafting a read of a type gives, in a state where the field header is bound. -/
structure Loading (t : SymbolTable) (levels : Nat) (type : FieldType) (header x : String)
    (st : DraftState) (code : List Stmt) (st' : DraftState) (form : Form) : Prop where
  form_eq : type.formWithin t levels = .ok form
  follows : Follows st st'
  bound : ∀ y ∈ boundIn code, y = x ∨ Between st st' y
  loads : Older st x → Loads header form x code

theorem Loading.scalar {t : SymbolTable} {levels : Nat} {type : FieldType} {header x : String}
    {st : DraftState} {kind : ScalarKind} (h : type.formWithin t levels = .ok (.scalar kind)) :
    Loading t levels type header x st [.read (.scalar kind) x] st (.scalar kind) :=
  ⟨h, .refl st, fun _ hy => .inl (List.mem_singleton.mp hy), fun _ => .scalar kind x⟩

/-- A read of elements is drafted behind three names of its own. -/
theorem sequence_eq_ok {t : SymbolTable} {levels : Nat} {type element : FieldType} {x : String}
    {kind : WireType → ContainerKind} {st st' : DraftState} {code : List Stmt}
    (h : (do
      let kind := kind (← ofExcept (type.elementType t element))
      let metadata ← fresh "metadata"
      let counter ← fresh "i"
      let value ← fresh "value"
      let body ← readWithin t levels element value
      return readContainer kind metadata counter x (body ++ [Stmt.insert kind x none value])) st =
        .ok code st') :
    ∃ w body, type.elementType t element = .ok w ∧
      readWithin t levels element (Names.temporary "value" (count st + 3))
        (issue (issue (issue st "metadata") "i") "value") = .ok body st' ∧
      code = readContainer (kind w) (Names.temporary "metadata" (count st + 1))
        (Names.temporary "i" (count st + 2)) x
        (body ++ [.insert (kind w) x none (Names.temporary "value" (count st + 3))]) := by
  obtain ⟨w, s₁, h₁, h⟩ := Steps.bind_eq_ok_iff.mp h
  obtain ⟨hw, rfl⟩ := ofExcept_eq_ok_iff.mp h₁
  obtain ⟨m, s₂, h₂, h⟩ := Steps.bind_eq_ok_iff.mp h
  obtain ⟨rfl, rfl⟩ := fresh_eq_ok_iff.mp h₂
  obtain ⟨i, s₃, h₃, h⟩ := Steps.bind_eq_ok_iff.mp h
  obtain ⟨rfl, rfl⟩ := fresh_eq_ok_iff.mp h₃
  obtain ⟨v, s₄, h₄, h⟩ := Steps.bind_eq_ok_iff.mp h
  obtain ⟨rfl, rfl⟩ := fresh_eq_ok_iff.mp h₄
  obtain ⟨body, s₅, hbody, h⟩ := Steps.bind_eq_ok_iff.mp h
  obtain ⟨rfl, rfl⟩ := Steps.pure_eq_ok_iff.mp h
  exact ⟨w, body, hw, hbody, rfl⟩

theorem issued_between {st st' : DraftState} (stem : String) {n : Nat} (h : count st < n)
    (h' : n ≤ count st') : Between st st' (Names.temporary stem n) := ⟨stem, n, rfl, h, h'⟩

/-- The state in which the elements of a list or a set are drafted. -/
def inSequence (st : DraftState) : DraftState := issue (issue (issue st "metadata") "i") "value"

theorem follows_inSequence (st : DraftState) : Follows st (inSequence st) :=
  ((follows_issue _ _).trans (follows_issue _ _)).trans (follows_issue _ _)

theorem count_inSequence (st : DraftState) : count (inSequence st) = count st + 3 := rfl

theorem sequence_bound {t : SymbolTable} {levels : Nat} {element : FieldType} {header x : String}
    {st st' : DraftState} {body : List Stmt} {e : Form} {kind : ContainerKind}
    (he : Loading t levels element header (Names.temporary "value" (count st + 3)) (inSequence st)
      body st' e) :
    ∀ y ∈ boundIn (readContainer kind (Names.temporary "metadata" (count st + 1))
        (Names.temporary "i" (count st + 2)) x
        (body ++ [.insert kind x none (Names.temporary "value" (count st + 3))])),
      y = x ∨ Between st st' y := by
  have hcount := he.follows.count_le
  rw [count_inSequence] at hcount
  intro y hy
  simp only [Stmt.boundIn_readContainer, Stmt.boundIn_append, Stmt.boundIn_insert,
    List.append_nil, List.mem_cons] at hy
  rcases hy with rfl | rfl | hy
  · exact .inr (issued_between _ (by omega) (by omega))
  · exact .inl rfl
  · rcases he.bound y hy with rfl | hb
    · exact .inr (issued_between _ (by omega) (by omega))
    · exact .inr (hb.mono (follows_inSequence st).count_le (Nat.le_refl _))

/-- The container is none of the names that are bound while its elements are read. -/
theorem sequence_apart {t : SymbolTable} {levels : Nat} {element : FieldType} {header x : String}
    {st st' : DraftState} {body : List Stmt} {e : Form}
    (he : Loading t levels element header (Names.temporary "value" (count st + 3)) (inSequence st)
      body st' e) (hold : Older st x) :
    Names.temporary "metadata" (count st + 1) ≠ x ∧ x ∉ boundIn body ∧
      Loads header e (Names.temporary "value" (count st + 3)) body := by
  refine ⟨(hold _ _ (by omega)).symm, ?_, he.loads (older_temporary (Nat.le_refl _))⟩
  intro hx
  rcases he.bound x hx with hx | hb
  · exact hold _ _ (by omega) hx
  · exact (hold.mono (follows_inSequence st).count_le).not_between hb

/-- The state in which the keys of a map are drafted. -/
def inEntries (st : DraftState) : DraftState :=
  issue (issue (issue (issue st "metadata") "i") "key") "value"

theorem follows_inEntries (st : DraftState) : Follows st (inEntries st) :=
  (((follows_issue _ _).trans (follows_issue _ _)).trans (follows_issue _ _)).trans
    (follows_issue _ _)

theorem count_inEntries (st : DraftState) : count (inEntries st) = count st + 4 := rfl

/-- A read of entries is drafted behind four names of its own, the key before the value. -/
theorem entries_eq_ok {t : SymbolTable} {levels : Nat} {key element : FieldType} {x : String}
    {st st' : DraftState} {code : List Stmt}
    (h : readWithin t (levels + 1) (.map key element) x st = .ok code st') :
    ∃ w w' kbody body mid, (FieldType.map key element).elementType t key = .ok w ∧
      (FieldType.map key element).elementType t element = .ok w' ∧
      readWithin t levels key (Names.temporary "key" (count st + 3)) (inEntries st) =
        .ok kbody mid ∧
      readWithin t levels element (Names.temporary "value" (count st + 4)) mid = .ok body st' ∧
      code = readContainer (.map w w') (Names.temporary "metadata" (count st + 1))
        (Names.temporary "i" (count st + 2)) x
        (kbody ++ body ++ [.insert (.map w w') x (some (Names.temporary "key" (count st + 3)))
          (Names.temporary "value" (count st + 4))]) := by
  rw [readWithin] at h
  obtain ⟨w, s₁, h₁, h⟩ := Steps.bind_eq_ok_iff.mp h
  obtain ⟨hw, rfl⟩ := ofExcept_eq_ok_iff.mp h₁
  obtain ⟨w', s₂, h₂, h⟩ := Steps.bind_eq_ok_iff.mp h
  obtain ⟨hw', rfl⟩ := ofExcept_eq_ok_iff.mp h₂
  obtain ⟨m, s₃, h₃, h⟩ := Steps.bind_eq_ok_iff.mp h
  obtain ⟨rfl, rfl⟩ := fresh_eq_ok_iff.mp h₃
  obtain ⟨i, s₄, h₄, h⟩ := Steps.bind_eq_ok_iff.mp h
  obtain ⟨rfl, rfl⟩ := fresh_eq_ok_iff.mp h₄
  obtain ⟨kn, s₅, h₅, h⟩ := Steps.bind_eq_ok_iff.mp h
  obtain ⟨rfl, rfl⟩ := fresh_eq_ok_iff.mp h₅
  obtain ⟨v, s₆, h₆, h⟩ := Steps.bind_eq_ok_iff.mp h
  obtain ⟨rfl, rfl⟩ := fresh_eq_ok_iff.mp h₆
  obtain ⟨kbody, mid, hkey, h⟩ := Steps.bind_eq_ok_iff.mp h
  obtain ⟨body, s₇, hbody, h⟩ := Steps.bind_eq_ok_iff.mp h
  obtain ⟨rfl, rfl⟩ := Steps.pure_eq_ok_iff.mp h
  exact ⟨w, w', kbody, body, mid, hw, hw', hkey, hbody, rfl⟩

section Entries

variable {t : SymbolTable} {levels : Nat} {key element : FieldType} {header x : String}
  {st mid st' : DraftState} {kbody body : List Stmt} {k e : Form}

theorem entries_bound {kind : ContainerKind} {kn : Option String}
    (hk : Loading t levels key header (Names.temporary "key" (count st + 3)) (inEntries st)
      kbody mid k)
    (he : Loading t levels element header (Names.temporary "value" (count st + 4)) mid body st' e) :
    ∀ y ∈ boundIn (readContainer kind (Names.temporary "metadata" (count st + 1))
        (Names.temporary "i" (count st + 2)) x
        (kbody ++ body ++ [.insert kind x kn (Names.temporary "value" (count st + 4))])),
      y = x ∨ Between st st' y := by
  have hst := (follows_inEntries st).count_le
  have hmid := hk.follows.count_le
  have hend := he.follows.count_le
  rw [count_inEntries] at hmid
  intro y hy
  simp only [Stmt.boundIn_readContainer, Stmt.boundIn_append, Stmt.boundIn_insert,
    List.append_nil, List.mem_cons, List.mem_append] at hy
  rcases hy with rfl | rfl | hy | hy
  · exact .inr (issued_between _ (by omega) (by omega))
  · exact .inl rfl
  · rcases hk.bound y hy with rfl | hb
    · exact .inr (issued_between _ (by omega) (by omega))
    · exact .inr (hb.mono hst hend)
  · rcases he.bound y hy with rfl | hb
    · exact .inr (issued_between _ (by omega) (by omega))
    · exact .inr (hb.mono (by omega) (Nat.le_refl _))

/-- Neither the map nor a key that was read is bound while the rest of the entry is read. -/
theorem entries_apart
    (hk : Loading t levels key header (Names.temporary "key" (count st + 3)) (inEntries st)
      kbody mid k)
    (he : Loading t levels element header (Names.temporary "value" (count st + 4)) mid body st' e)
    (hold : Older st x) :
    Names.temporary "metadata" (count st + 1) ≠ x ∧
      Names.temporary "key" (count st + 3) ∉ boundIn body ∧ x ∉ boundIn (kbody ++ body) ∧
      Loads header k (Names.temporary "key" (count st + 3)) kbody ∧
      Loads header e (Names.temporary "value" (count st + 4)) body := by
  have hmid := hk.follows.count_le
  rw [count_inEntries] at hmid
  refine ⟨(hold _ _ (by omega)).symm, ?_, ?_, hk.loads (older_temporary ?_),
    he.loads (older_temporary (by omega))⟩
  · intro hkn
    rcases he.bound _ hkn with hkn | hb
    · have := Names.temporary_number hkn
      omega
    · exact (older_temporary (by omega)).not_between hb
  · rw [Stmt.boundIn_append, List.mem_append]
    rintro (hx | hx)
    · rcases hk.bound x hx with hx | hb
      · exact hold _ _ (by omega) hx
      · exact (hold.mono (follows_inEntries st).count_le).not_between hb
    · rcases he.bound x hx with hx | hb
      · exact hold _ _ (by omega) hx
      · exact (hold.mono (by omega)).not_between hb
  · rw [count_inEntries]
    omega

end Entries

/-- What drafting gives for a type loads the form of the type. -/
theorem readWithin_loading {t : SymbolTable} {levels : Nat} {type : FieldType} {header x : String}
    {st st' : DraftState} {code : List Stmt} (hh : st.header = some header)
    (h : readWithin t levels type x st = .ok code st') :
    ∃ form, Loading t levels type header x st code st' form := by
  induction levels generalizing type x st st' code with
  | zero => cases h
  | succ levels ih =>
    cases type with
    | identifier name =>
      rw [readWithin] at h
      obtain ⟨shape, s₁, h₁, h⟩ := Steps.bind_eq_ok_iff.mp h
      obtain ⟨hs, rfl⟩ := ofExcept_eq_ok_iff.mp h₁
      cases shape with
      | struct struct =>
        cases h
        refine ⟨.struct struct, ?_, .refl _, fun _ hy => .inl (List.mem_singleton.mp hy), fun _ =>
          .struct struct x⟩
        rw [FieldType.formWithin, hs]
        rfl
      | enumeration =>
        cases h
        refine ⟨.scalar .i32, .scalar ?_⟩
        rw [FieldType.formWithin, hs]
        rfl
      | «alias» underlying =>
        obtain ⟨form, hf⟩ := ih hh h
        refine ⟨form, ?_, hf.follows, hf.bound, hf.loads⟩
        rw [FieldType.formWithin, hs]
        exact hf.form_eq
    | list element =>
      rw [readWithin] at h
      obtain ⟨w, body, hw, hbody, rfl⟩ := sequence_eq_ok h
      obtain ⟨e, he⟩ := ih (by exact hh) hbody
      obtain ⟨rfl, hne⟩ := FieldType.elementType_form hw he.form_eq
      refine ⟨.list e, ?_, (follows_inSequence st).trans he.follows, sequence_bound he, ?_⟩
      · rw [FieldType.formWithin, hw, he.form_eq]
        rfl
      · intro hold
        obtain ⟨hm, hx, hl⟩ := sequence_apart he hold
        exact .list hne hm hx hl
    | set element =>
      rw [readWithin] at h
      obtain ⟨w, body, hw, hbody, rfl⟩ := sequence_eq_ok h
      obtain ⟨e, he⟩ := ih (by exact hh) hbody
      obtain ⟨rfl, hne⟩ := FieldType.elementType_form hw he.form_eq
      refine ⟨.set e, ?_, (follows_inSequence st).trans he.follows, sequence_bound he, ?_⟩
      · rw [FieldType.formWithin, hw, he.form_eq]
        rfl
      · intro hold
        obtain ⟨hm, hx, hl⟩ := sequence_apart he hold
        exact .set hne hm hx hl
    | map key element =>
      obtain ⟨w, w', kbody, body, mid, hw, hw', hkey, hbody, rfl⟩ := entries_eq_ok h
      obtain ⟨k, hk⟩ := ih (by exact hh) hkey
      obtain ⟨e, he⟩ := ih (hk.follows.header_eq.trans hh) hbody
      obtain ⟨rfl, hkne⟩ := FieldType.elementType_form hw hk.form_eq
      obtain ⟨rfl, hne⟩ := FieldType.elementType_form hw' he.form_eq
      refine ⟨.map k e, ?_, ((follows_inEntries st).trans hk.follows).trans he.follows,
        entries_bound hk he, ?_⟩
      · rw [FieldType.formWithin, hw, hw', hk.form_eq, he.form_eq]
        rfl
      · intro hold
        obtain ⟨hm, hkn, hx, hlk, hle⟩ := entries_apart hk he hold
        exact .map hkne hne hm hkn hx hlk hle
    | void =>
      rw [readWithin] at h
      obtain ⟨s, s₁, h₁, h⟩ := Steps.bind_eq_ok_iff.mp h
      cases h₁
      rw [hh] at h
      cases h
      exact ⟨.void, rfl, .refl _, fun _ hy => absurd hy List.not_mem_nil, fun _ => .void x⟩
    | _ =>
      cases h
      exact ⟨_, .scalar rfl⟩

/-! ## Drafting writes -/

/-- What drafting a write of a type gives. -/
structure Storing (t : SymbolTable) (levels : Nat) (type : FieldType) (source : Expr)
    (st : DraftState) (code : List Stmt) (st' : DraftState) (form : Form) : Prop where
  form_eq : type.formWithin t levels = .ok form
  follows : Follows st st'
  bound : ∀ y ∈ boundIn code, Between st st' y
  stores : Stores form source code

theorem Storing.scalar {t : SymbolTable} {levels : Nat} {type : FieldType} {source : Expr}
    {st : DraftState} {kind : ScalarKind} (h : type.formWithin t levels = .ok (.scalar kind)) :
    Storing t levels type source st [.write (.scalar kind) source] st (.scalar kind) :=
  ⟨h, .refl st, fun _ hy => absurd hy List.not_mem_nil, .scalar kind source⟩

/-- A write of elements is drafted behind the name of the element. -/
theorem items_eq_ok {t : SymbolTable} {levels : Nat} {type element : FieldType} {source : Expr}
    {kind : WireType → ContainerKind} {st st' : DraftState} {code : List Stmt}
    (h : (do
      let kind := kind (← ofExcept (type.elementType t element))
      let value ← fresh "value"
      let body ← writeWithin t levels element (.bound value)
      return writeContainer kind source none value body) st = .ok code st') :
    ∃ w body, type.elementType t element = .ok w ∧
      writeWithin t levels element (.bound (Names.temporary "value" (count st + 1)))
        (issue st "value") = .ok body st' ∧
      code = writeContainer (kind w) source none (Names.temporary "value" (count st + 1)) body := by
  obtain ⟨w, s₁, h₁, h⟩ := Steps.bind_eq_ok_iff.mp h
  obtain ⟨hw, rfl⟩ := ofExcept_eq_ok_iff.mp h₁
  obtain ⟨v, s₂, h₂, h⟩ := Steps.bind_eq_ok_iff.mp h
  obtain ⟨rfl, rfl⟩ := fresh_eq_ok_iff.mp h₂
  obtain ⟨body, s₃, hbody, h⟩ := Steps.bind_eq_ok_iff.mp h
  obtain ⟨rfl, rfl⟩ := Steps.pure_eq_ok_iff.mp h
  exact ⟨w, body, hw, hbody, rfl⟩

theorem items_bound {t : SymbolTable} {levels : Nat} {element : FieldType} {source : Expr}
    {st st' : DraftState} {body : List Stmt} {e : Form} {kind : ContainerKind} {src : Expr}
    (he : Storing t levels element src (issue st "value") body st' e) :
    ∀ y ∈ boundIn (writeContainer kind source none (Names.temporary "value" (count st + 1)) body),
      Between st st' y := by
  have hcount := he.follows.count_le
  rw [count_issue] at hcount
  intro y hy
  simp only [Stmt.boundIn_writeContainer, Option.toList_none, List.nil_append,
    List.mem_cons] at hy
  rcases hy with rfl | hy
  · exact issued_between _ (by omega) hcount
  · exact (he.bound y hy).mono (follows_issue _ _).count_le (Nat.le_refl _)

/-- A write of entries is drafted behind the names of the key and of the value. -/
theorem pairs_eq_ok {t : SymbolTable} {levels : Nat} {key element : FieldType} {source : Expr}
    {st st' : DraftState} {code : List Stmt}
    (h : writeWithin t (levels + 1) (.map key element) source st = .ok code st') :
    ∃ w w' kbody body mid, (FieldType.map key element).elementType t key = .ok w ∧
      (FieldType.map key element).elementType t element = .ok w' ∧
      writeWithin t levels key (.bound (Names.temporary "key" (count st + 1)))
        (issue (issue st "key") "value") = .ok kbody mid ∧
      writeWithin t levels element (.bound (Names.temporary "value" (count st + 2))) mid =
        .ok body st' ∧
      code = writeContainer (.map w w') source (some (Names.temporary "key" (count st + 1)))
        (Names.temporary "value" (count st + 2)) (kbody ++ body) := by
  rw [writeWithin] at h
  obtain ⟨w, s₁, h₁, h⟩ := Steps.bind_eq_ok_iff.mp h
  obtain ⟨hw, rfl⟩ := ofExcept_eq_ok_iff.mp h₁
  obtain ⟨w', s₂, h₂, h⟩ := Steps.bind_eq_ok_iff.mp h
  obtain ⟨hw', rfl⟩ := ofExcept_eq_ok_iff.mp h₂
  obtain ⟨kn, s₃, h₃, h⟩ := Steps.bind_eq_ok_iff.mp h
  obtain ⟨rfl, rfl⟩ := fresh_eq_ok_iff.mp h₃
  obtain ⟨v, s₄, h₄, h⟩ := Steps.bind_eq_ok_iff.mp h
  obtain ⟨rfl, rfl⟩ := fresh_eq_ok_iff.mp h₄
  obtain ⟨kbody, mid, hkey, h⟩ := Steps.bind_eq_ok_iff.mp h
  obtain ⟨body, s₅, hbody, h⟩ := Steps.bind_eq_ok_iff.mp h
  obtain ⟨rfl, rfl⟩ := Steps.pure_eq_ok_iff.mp h
  exact ⟨w, w', kbody, body, mid, hw, hw', hkey, hbody, rfl⟩

section Pairs

variable {t : SymbolTable} {levels : Nat} {key element : FieldType} {source source' : Expr}
  {st mid st' : DraftState} {kbody body : List Stmt} {k e : Form}

theorem pairs_bound {kind : ContainerKind} {src : Expr}
    (hk : Storing t levels key source (issue (issue st "key") "value") kbody mid k)
    (he : Storing t levels element source' mid body st' e) :
    ∀ y ∈ boundIn (writeContainer kind src (some (Names.temporary "key" (count st + 1)))
      (Names.temporary "value" (count st + 2)) (kbody ++ body)), Between st st' y := by
  have hmid := hk.follows.count_le
  have hend := he.follows.count_le
  simp only [count_issue] at hmid
  intro y hy
  simp only [Stmt.boundIn_writeContainer, Option.toList_some, List.cons_append,
    List.nil_append, List.mem_cons, Stmt.boundIn_append, List.mem_append] at hy
  rcases hy with rfl | rfl | hy | hy
  · exact issued_between _ (by omega) (by omega)
  · exact issued_between _ (by omega) (by omega)
  · exact (hk.bound y hy).mono (by simp only [count_issue]; omega) hend
  · exact (he.bound y hy).mono (by omega) (Nat.le_refl _)

/-- The value keeps its name while the key is written. -/
theorem pairs_apart
    (hk : Storing t levels key source (issue (issue st "key") "value") kbody mid k) :
    Names.temporary "key" (count st + 1) ≠ Names.temporary "value" (count st + 2) ∧
      Names.temporary "value" (count st + 2) ∉ boundIn kbody := by
  constructor
  · intro heq
    have := Names.temporary_number heq
    omega
  · intro hv
    exact (older_temporary (Nat.le_refl _)).not_between (hk.bound _ hv)

end Pairs

/-- What drafting gives for a type stores the form of the type. -/
theorem writeWithin_storing {t : SymbolTable} {levels : Nat} {type : FieldType} {source : Expr}
    {st st' : DraftState} {code : List Stmt}
    (h : writeWithin t levels type source st = .ok code st') :
    ∃ form, Storing t levels type source st code st' form := by
  induction levels generalizing type source st st' code with
  | zero => cases h
  | succ levels ih =>
    cases type with
    | identifier name =>
      rw [writeWithin] at h
      obtain ⟨shape, s₁, h₁, h⟩ := Steps.bind_eq_ok_iff.mp h
      obtain ⟨hs, rfl⟩ := ofExcept_eq_ok_iff.mp h₁
      cases shape with
      | struct struct =>
        cases h
        refine ⟨.struct struct, ?_, .refl _, fun _ hy => absurd hy List.not_mem_nil,
          .struct struct source⟩
        rw [FieldType.formWithin, hs]
        rfl
      | enumeration =>
        cases h
        refine ⟨.scalar .i32, .scalar ?_⟩
        rw [FieldType.formWithin, hs]
        rfl
      | «alias» underlying =>
        obtain ⟨form, hf⟩ := ih h
        refine ⟨form, ?_, hf.follows, hf.bound, hf.stores⟩
        rw [FieldType.formWithin, hs]
        exact hf.form_eq
    | list element =>
      rw [writeWithin] at h
      obtain ⟨w, body, hw, hbody, rfl⟩ := items_eq_ok h
      obtain ⟨e, he⟩ := ih hbody
      obtain ⟨rfl, -⟩ := FieldType.elementType_form hw he.form_eq
      refine ⟨.list e, ?_, (follows_issue _ _).trans he.follows, items_bound he, .list he.stores⟩
      rw [FieldType.formWithin, hw, he.form_eq]
      rfl
    | set element =>
      rw [writeWithin] at h
      obtain ⟨w, body, hw, hbody, rfl⟩ := items_eq_ok h
      obtain ⟨e, he⟩ := ih hbody
      obtain ⟨rfl, -⟩ := FieldType.elementType_form hw he.form_eq
      refine ⟨.set e, ?_, (follows_issue _ _).trans he.follows, items_bound he, .set he.stores⟩
      rw [FieldType.formWithin, hw, he.form_eq]
      rfl
    | map key element =>
      obtain ⟨w, w', kbody, body, mid, hw, hw', hkey, hbody, rfl⟩ := pairs_eq_ok h
      obtain ⟨k, hk⟩ := ih hkey
      obtain ⟨e, he⟩ := ih hbody
      obtain ⟨rfl, -⟩ := FieldType.elementType_form hw hk.form_eq
      obtain ⟨rfl, -⟩ := FieldType.elementType_form hw' he.form_eq
      obtain ⟨hkv, hapart⟩ := pairs_apart hk
      refine ⟨.map k e, ?_, ((follows_issue _ _).trans (follows_issue _ _)).trans
        (hk.follows.trans he.follows), pairs_bound hk he, .map hkv hapart hk.stores he.stores⟩
      rw [FieldType.formWithin, hw, hw', hk.form_eq, he.form_eq]
      rfl
    | void =>
      cases h
      exact ⟨.void, rfl, .refl _, fun _ hy => absurd hy List.not_mem_nil, .void source⟩
    | _ =>
      cases h
      exact ⟨_, .scalar rfl⟩

end Draft

end Thrift
