-- What the locals of a procedure are bound by. The names that are given out while a procedure is
-- drafted have numbers of their own, and its code binds each of them once, besides the header of
-- the field. So each local is bound by one statement of the whole tree.
import Mathlib.Data.List.Nodup
import Thrift.Proofs.Mirrored

namespace Thrift

open StructCodec (headerName)

/-! ## Names that are given out -/

namespace Names

/-- The names that are given out for stems, one after the other. -/
def freshAll (n : Names) : List String → List String
  | [] => []
  | stem :: stems => (n.fresh stem).1 :: (n.fresh stem).2.freshAll stems

/-- The names that stems get under the numbers after a count. -/
def given (count : Nat) : List String → List String
  | [] => []
  | stem :: stems => temporary stem (count + 1) :: given (count + 1) stems

theorem freshAll_eq (n : Names) (stems : List String) :
    n.freshAll stems = given n.stems.length stems := by
  induction stems generalizing n with
  | nil => rfl
  | cons stem stems ih =>
    rw [freshAll, ih]
    rfl

theorem given_append (count : Nat) (a b : List String) :
    given count (a ++ b) = given count a ++ given (count + a.length) b := by
  induction a generalizing count with
  | nil => rfl
  | cons stem a ih =>
    rw [List.cons_append, given, ih, given, List.cons_append, List.length_cons, Nat.add_assoc,
      Nat.add_comm 1]

theorem exists_of_mem_given {count : Nat} {stems : List String} {name : String}
    (h : name ∈ given count stems) : ∃ stem k, name = temporary stem k ∧ count < k := by
  induction stems generalizing count with
  | nil => exact absurd h List.not_mem_nil
  | cons stem stems ih =>
    rcases List.mem_cons.mp h with rfl | h
    · exact ⟨stem, count + 1, rfl, Nat.lt_succ_self _⟩
    · obtain ⟨stem', k, rfl, hk⟩ := ih h
      exact ⟨stem', k, rfl, by omega⟩

theorem nodup_given (count : Nat) (stems : List String) : (given count stems).Nodup := by
  induction stems generalizing count with
  | nil => exact List.nodup_nil
  | cons stem stems ih =>
    refine List.nodup_cons.mpr ⟨fun hmem => ?_, ih _⟩
    obtain ⟨stem', k, heq, hk⟩ := exists_of_mem_given hmem
    have := temporary_number heq
    omega

/-- The header of a field is no temporary: its name has no underscore. -/
theorem temporary_ne_header (stem : String) (k : Nat) : temporary stem k ≠ headerName := by
  intro heq
  have hmem := underscore_mem_temporary stem k
  rw [heq] at hmem
  exact absurd hmem (by decide)

theorem header_not_mem_given (count : Nat) (stems : List String) :
    headerName ∉ given count stems := by
  intro hmem
  obtain ⟨stem, k, heq, -⟩ := exists_of_mem_given hmem
  exact temporary_ne_header stem k heq.symm

end Names

open Names (given)

/-! ## Locals of statements -/

/-- The local that an expression starts from. -/
def Expr.locals : Expr → List String
  | this => []
  | bound name => [name]
  | field base _ => base.locals

namespace Stmt

/-- The locals that a statement itself binds, the counter of a loop among them. -/
def introduces : Stmt → List String
  | repeated _ counter _ => [counter]
  | s => s.binds

/-- The locals that a statement itself uses. -/
def uses : Stmt → List String
  | insert _ container key value => container :: (key.toList ++ [value])
  | skip header => [header]
  | breakIfStop header => [header]
  | switch header _ _ => [header]
  | ifWireType header _ _ _ => [header]
  | repeated metadata _ _ => [metadata]
  | stage _ value => [value]
  | writeContainerBegin _ source => source.locals
  | write _ source => source.locals
  | forEach _ source _ _ _ => source.locals
  | ifPresent source _ => source.locals
  | requirePresent source _ => source.locals
  | requireSingleField source _ _ => source.locals
  | _ => []

/-- What statements have at any depth, in the order of a walk. -/
def among {α : Type} (f : Stmt → List α) (code : List Stmt) : List α := (walkAll code).flatMap f

def introducedIn (code : List Stmt) : List String := among introduces code

def usedIn (code : List Stmt) : List String := among uses code

/-- Cases are walked one after the other. -/
theorem walkCases_eq (cases : List (Int16 × List Stmt)) :
    walkCases cases = walkAll (cases.flatMap (·.2)) := by
  induction cases with
  | nil => rfl
  | cons c cases ih => rw [walkCases, ih, List.flatMap_cons, walkAll_append]

section Among

variable {α : Type} (f : Stmt → List α)

theorem among_append (a b : List Stmt) : among f (a ++ b) = among f a ++ among f b := by
  unfold among
  rw [walkAll_append, List.flatMap_append]

theorem among_eq_nil {code : List Stmt} (h : ∀ s ∈ code, s.walk.flatMap f = []) :
    among f code = [] := by
  induction code with
  | nil => rfl
  | cons s code ih =>
    obtain ⟨hs, hcode⟩ := List.forall_mem_cons.mp h
    have hrest : (walkAll code).flatMap f = [] := ih hcode
    rw [among, walkAll, List.flatMap_append, hs, hrest, List.append_nil]

theorem among_readContainer (kind : ContainerKind) (m i x : String) (body : List Stmt) :
    among f (Draft.readContainer kind m i x body) =
      f (.readContainerBegin kind m) ++ f (.newContainer kind x) ++ f (.repeated m i body) ++
        among f body ++ f (.readContainerEnd kind) := by
  simp [among, Draft.readContainer, walkAll, walk]

theorem among_writeContainer (kind : ContainerKind) (source : Expr) (key : Option String)
    (v : String) (body : List Stmt) :
    among f (Draft.writeContainer kind source key v body) =
      f (.writeContainerBegin kind source) ++ f (.forEach kind source key v body) ++
        among f body ++ f (.writeContainerEnd kind) := by
  simp [among, Draft.writeContainer, walkAll, walk]

/-- A decode procedure is the code of its cases, with the handling of headers around. -/
theorem among_decode (r : Record) :
    among f r.decode = f .readStructBegin ++ f (.loop (StructCodec.fieldLoop
        (numbered Member.loading r.members 0))) ++ f (.readFieldBegin headerName) ++
      f (.breakIfStop headerName) ++ f (.switch headerName (numbered Member.loading r.members 0)
        [.skip headerName]) ++ among f ((numbered Member.loading r.members 0).flatMap (·.2)) ++
      f (.skip headerName) ++ f .readFieldEnd ++ f .readStructEnd ++
        f (.construct r.name r.kind (r.sent.map Member.toInit)) := by
  simp [among, Record.decode, StructCodec.fieldLoop, walkAll, walk, walkCases_eq]

end Among

theorem introducedIn_append (a b : List Stmt) :
    introducedIn (a ++ b) = introducedIn a ++ introducedIn b := among_append _ a b

theorem introducedIn_readContainer (kind : ContainerKind) (m i x : String) (body : List Stmt) :
    introducedIn (Draft.readContainer kind m i x body) = m :: x :: i :: introducedIn body := by
  simp [introducedIn, among_readContainer, introduces, binds]

theorem introducedIn_writeContainer (kind : ContainerKind) (source : Expr) (key : Option String)
    (v : String) (body : List Stmt) : introducedIn (Draft.writeContainer kind source key v body) =
      key.toList ++ v :: introducedIn body := by
  simp [introducedIn, among_writeContainer, introduces, binds]

theorem usedIn_append (a b : List Stmt) : usedIn (a ++ b) = usedIn a ++ usedIn b :=
  among_append _ a b

@[simp] theorem introducedIn_insert (body : List Stmt) (kind : ContainerKind) (x : String)
    (key : Option String) (v : String) :
    introducedIn (body ++ [.insert kind x key v]) = introducedIn body := by
  rw [introducedIn_append]
  exact List.append_nil _

theorem usedIn_insert (body : List Stmt) (kind : ContainerKind) (x : String)
    (key : Option String) (v : String) :
    usedIn (body ++ [.insert kind x key v]) = usedIn body ++ x :: (key.toList ++ [v]) := by
  rw [usedIn_append]
  exact congrArg (usedIn body ++ ·) (List.append_nil _)

theorem usedIn_readContainer (kind : ContainerKind) (m i x : String) (body : List Stmt) :
    usedIn (Draft.readContainer kind m i x body) = m :: usedIn body := by
  simp [usedIn, among_readContainer, uses]

theorem usedIn_writeContainer (kind : ContainerKind) (source : Expr) (key : Option String)
    (v : String) (body : List Stmt) : usedIn (Draft.writeContainer kind source key v body) =
      source.locals ++ source.locals ++ usedIn body := by
  simp [usedIn, among_writeContainer, uses]

theorem usedIn_write (codec : ValueCodec) (source : Expr) :
    usedIn [.write codec source] = source.locals := List.append_nil _

/-- What is done with a field whose tag is the expected one. -/
theorem introducedIn_case (header field value : String) (w : WireType) (code : List Stmt) :
    introducedIn [.ifWireType header w (code ++ [.stage field value]) [.skip header]] =
      introducedIn code := by
  simp [introducedIn, among, walkAll, walk, walkAll_append, introduces, binds]

theorem usedIn_case (header field value : String) (w : WireType) (code : List Stmt) :
    usedIn [.ifWireType header w (code ++ [.stage field value]) [.skip header]] =
      header :: (usedIn code ++ [value, header]) := by
  simp [usedIn, among, walkAll, walk, walkAll_append, uses]

/-- What is sent when a field is set. -/
theorem introducedIn_present (source : Expr) (field : String) (w : WireType) (id : Int16)
    (code : List Stmt) :
    introducedIn [.ifPresent source ([.writeFieldBegin field w id] ++ code ++ [.writeFieldEnd])] =
      introducedIn code := by
  simp [introducedIn, among, walkAll, walk, walkAll_append, introduces, binds]

theorem usedIn_present (source : Expr) (field : String) (w : WireType) (id : Int16)
    (code : List Stmt) :
    usedIn [.ifPresent source ([.writeFieldBegin field w id] ++ code ++ [.writeFieldEnd])] =
      source.locals ++ usedIn code := by
  simp [usedIn, among, walkAll, walk, walkAll_append, uses]

end Stmt

open Stmt (introducedIn usedIn introducedIn_case usedIn_case introducedIn_present usedIn_present)

/-! ## Code that spends numbers -/

/-- The code binds its targets and the names that are given out between two counts, each of them
once. What it uses is bound there or is an outer name. -/
structure Spends (targets outer : List String) (n n' : Nat) (code : List Stmt) : Prop where
  names : ∃ stems, n' = n + stems.length ∧ (introducedIn code).Perm (targets ++ given n stems)
  bound : ∀ y ∈ usedIn code, y ∈ outer ∨ y ∈ introducedIn code

namespace Spends

variable {outer : List String} {n mid n' : Nat} {code more : List Stmt}

theorem nil (outer : List String) (n : Nat) : Spends [] outer n n [] :=
  ⟨⟨[], rfl, .refl _⟩, fun _ hy => absurd hy List.not_mem_nil⟩

theorem append (h : Spends [] outer n mid code) (h' : Spends [] outer mid n' more) :
    Spends [] outer n n' (code ++ more) := by
  obtain ⟨⟨a, rfl, ha⟩, hbound⟩ := h
  obtain ⟨⟨b, rfl, hb⟩, hbound'⟩ := h'
  refine ⟨⟨a ++ b, ?_, ?_⟩, ?_⟩
  · rw [List.length_append, Nat.add_assoc]
  · rw [Stmt.introducedIn_append, List.nil_append, Names.given_append]
    exact ha.append hb
  · intro y hy
    rw [Stmt.usedIn_append, List.mem_append] at hy
    rw [Stmt.introducedIn_append, List.mem_append]
    rcases hy with hy | hy
    · exact (hbound y hy).imp_right .inl
    · exact (hbound' y hy).imp_right .inr

/-- Code for one thing behind another spends the numbers one after the other. -/
theorem numbered {α β : Type} {code : α → Nat → β × Nat} (stmts : β → List Stmt) {as : List α}
    (h : ∀ a ∈ as, ∀ n, Spends [] outer n (code a n).2 (stmts (code a n).1)) (n : Nat) :
    ∃ n', Spends [] outer n n' ((numbered code as n).flatMap stmts) := by
  induction as generalizing n with
  | nil => exact ⟨n, .nil outer n⟩
  | cons a as ih =>
    obtain ⟨ha, has⟩ := List.forall_mem_cons.mp h
    obtain ⟨n', hrest⟩ := ih has (code a n).2
    exact ⟨n', (ha n).append hrest⟩

section Containers

variable {header x : String} {kind : ContainerKind} {body keyBody : List Stmt}

/-- Elements are read behind the names for the size and the counter. -/
theorem readContainer (stems : List String) (hcount : n' = n + 2 + stems.length)
    (hnames : (introducedIn body).Perm (given (n + 2) stems))
    (hbound : ∀ y ∈ usedIn body, y = header ∨ y = x ∨ y ∈ introducedIn body) :
    Spends [x] [header] n n' (Draft.readContainer kind (Names.temporary "metadata" (n + 1))
      (Names.temporary "i" (n + 2)) x body) := by
  refine ⟨⟨"metadata" :: "i" :: stems, ?_, ?_⟩, ?_⟩
  · simp only [List.length_cons]
    omega
  · rw [Stmt.introducedIn_readContainer]
    exact (List.Perm.swap _ _ _).trans (((hnames.cons _).cons _).cons _)
  · rw [Stmt.introducedIn_readContainer, Stmt.usedIn_readContainer]
    intro y hy
    rcases List.mem_cons.mp hy with rfl | hy
    · exact .inr (List.mem_cons_self ..)
    · rcases hbound y hy with rfl | rfl | hy
      · exact .inl (List.mem_cons_self ..)
      · simp
      · simp [hy]

/-- The elements of a list or a set are read into one name and put into the container. -/
theorem sequence
    (h : Spends [Names.temporary "value" (n + 3)] [header] (n + 3) n' body) :
    Spends [x] [header] n n' (Draft.readContainer kind (Names.temporary "metadata" (n + 1))
      (Names.temporary "i" (n + 2)) x
      (body ++ [.insert kind x none (Names.temporary "value" (n + 3))])) := by
  obtain ⟨⟨stems, hcount, hnames⟩, hbound⟩ := h
  refine readContainer ("value" :: stems) ?_ ?_ ?_
  · rw [hcount, List.length_cons]
    omega
  · rw [Stmt.introducedIn_insert]
    exact hnames
  · rw [Stmt.introducedIn_insert, Stmt.usedIn_insert]
    intro y hy
    rcases List.mem_append.mp hy with hy | hy
    · exact (hbound y hy).imp List.mem_singleton.mp .inr
    · rcases List.mem_pair.mp hy with rfl | rfl
      · exact .inr (.inl rfl)
      · exact .inr (.inr (hnames.mem_iff.mpr (List.mem_cons_self ..)))

/-- The keys and the values of a map are read into two names, the keys first. -/
theorem entries (hk : Spends [Names.temporary "key" (n + 3)] [header] (n + 4) mid keyBody)
    (h : Spends [Names.temporary "value" (n + 4)] [header] mid n' body) :
    Spends [x] [header] n n' (Draft.readContainer kind (Names.temporary "metadata" (n + 1))
      (Names.temporary "i" (n + 2)) x
      (keyBody ++ body ++ [.insert kind x (some (Names.temporary "key" (n + 3)))
        (Names.temporary "value" (n + 4))])) := by
  obtain ⟨⟨a, rfl, ha⟩, hbound⟩ := hk
  obtain ⟨⟨b, hcount, hb⟩, hbound'⟩ := h
  refine readContainer ("key" :: "value" :: (a ++ b)) ?_ ?_ ?_
  · rw [hcount, List.length_cons, List.length_cons, List.length_append]
    omega
  · rw [Stmt.introducedIn_insert, Stmt.introducedIn_append, given, given, Names.given_append]
    exact (ha.append hb).trans (List.perm_middle.cons _)
  · rw [Stmt.introducedIn_insert, Stmt.usedIn_insert, Stmt.introducedIn_append,
      Stmt.usedIn_append]
    intro y hy
    rw [List.mem_append (s := introducedIn keyBody)]
    rcases List.mem_append.mp hy with hy | hy
    · rcases List.mem_append.mp hy with hy | hy
      · exact (hbound y hy).imp List.mem_singleton.mp fun hy => .inr (.inl hy)
      · exact (hbound' y hy).imp List.mem_singleton.mp fun hy => .inr (.inr hy)
    · simp only [Option.toList_some, List.cons_append, List.nil_append, List.mem_cons,
        List.not_mem_nil, or_false] at hy
      rcases hy with rfl | rfl | rfl
      · exact .inr (.inl rfl)
      · exact .inr (.inr (.inl (ha.mem_iff.mpr (List.mem_cons_self ..))))
      · exact .inr (.inr (.inr (hb.mem_iff.mpr (List.mem_cons_self ..))))

theorem write (codec : ValueCodec) (source : Expr) (n : Nat) :
    Spends [] source.locals n n [.write codec source] := by
  refine ⟨⟨[], rfl, .refl _⟩, fun y hy => .inl ?_⟩
  rwa [Stmt.usedIn_write] at hy

/-- The elements of a list or a set are written under one name. -/
theorem items {source : Expr}
    (h : Spends [] (Expr.bound (Names.temporary "value" (n + 1))).locals (n + 1) n' body) :
    Spends [] source.locals n n' (Draft.writeContainer kind source none
      (Names.temporary "value" (n + 1)) body) := by
  obtain ⟨⟨stems, hcount, hnames⟩, hbound⟩ := h
  refine ⟨⟨"value" :: stems, ?_, ?_⟩, ?_⟩
  · rw [hcount, List.length_cons]
    omega
  · rw [Stmt.introducedIn_writeContainer]
    exact hnames.cons _
  · rw [Stmt.introducedIn_writeContainer, Stmt.usedIn_writeContainer]
    intro y hy
    rcases List.mem_append.mp hy with hy | hy
    · exact .inl (by simpa using hy)
    · refine .inr (List.mem_cons.mpr ?_)
      exact (hbound y hy).imp_left List.mem_singleton.mp

/-- The keys and the values of a map are written under two names. -/
theorem pairs {source : Expr}
    (hk : Spends [] (Expr.bound (Names.temporary "key" (n + 1))).locals (n + 2) mid keyBody)
    (h : Spends [] (Expr.bound (Names.temporary "value" (n + 2))).locals mid n' body) :
    Spends [] source.locals n n' (Draft.writeContainer kind source
      (some (Names.temporary "key" (n + 1))) (Names.temporary "value" (n + 2))
      (keyBody ++ body)) := by
  obtain ⟨⟨a, rfl, ha⟩, hbound⟩ := hk
  obtain ⟨⟨b, hcount, hb⟩, hbound'⟩ := h
  refine ⟨⟨"key" :: "value" :: (a ++ b), ?_, ?_⟩, ?_⟩
  · rw [hcount, List.length_cons, List.length_cons, List.length_append]
    omega
  · rw [Stmt.introducedIn_writeContainer, Stmt.introducedIn_append, given, given,
      Names.given_append]
    exact ((ha.append hb).cons _).cons _
  · rw [Stmt.introducedIn_writeContainer, Stmt.usedIn_writeContainer, Stmt.introducedIn_append,
      Stmt.usedIn_append]
    intro y hy
    simp only [Option.toList_some, List.cons_append, List.nil_append, List.mem_cons,
      List.mem_append]
    rcases List.mem_append.mp hy with hy | hy
    · exact .inl (by simpa using hy)
    · refine .inr ?_
      rcases List.mem_append.mp hy with hy | hy
      · rcases hbound y hy with hy | hy
        · exact .inl (List.mem_singleton.mp hy)
        · exact .inr (.inr (.inl hy))
      · rcases hbound' y hy with hy | hy
        · exact .inr (.inl (List.mem_singleton.mp hy))
        · exact .inr (.inr (.inr hy))

end Containers

end Spends

namespace Form

/-- What loads a value into a local binds it, and all names that are given out meanwhile. -/
theorem loading_spends {form : Form} (hv : form ≠ .void) (hs : form.Solid) (header x : String)
    (n : Nat) :
    Spends [x] [header] n (form.loading header x n).2 (form.loading header x n).1 := by
  induction form generalizing x n with
  | scalar kind => exact ⟨⟨[], rfl, .refl _⟩, fun _ hy => absurd hy List.not_mem_nil⟩
  | struct name => exact ⟨⟨[], rfl, .refl _⟩, fun _ hy => absurd hy List.not_mem_nil⟩
  | list e ih =>
    rw [loading]
    exact (ih hs.1 hs.2 _ _).sequence
  | set e ih =>
    rw [loading]
    exact (ih hs.1 hs.2 _ _).sequence
  | map k e ihk ihe =>
    obtain ⟨⟨hk, hks⟩, he, hes⟩ := hs
    rw [loading]
    exact (ihk hk hks _ _).entries (ihe he hes _ _)
  | void => exact absurd rfl hv

/-- What stores a value binds the names that are given out meanwhile. -/
theorem storing_spends (form : Form) (source : Expr) (n : Nat) :
    Spends [] source.locals n (form.storing source n).2 (form.storing source n).1 := by
  induction form generalizing source n with
  | scalar kind => exact .write _ source n
  | struct name => exact .write _ source n
  | list e ih =>
    rw [storing]
    exact (ih _ _).items
  | set e ih =>
    rw [storing]
    exact (ih _ _).items
  | map k e ihk ihe =>
    rw [storing]
    exact (ihk _ _).pairs (ihe _ _)
  | void => exact .nil _ _

end Form

namespace Member

/-- What is done with a header of a member's id. -/
theorem loading_spends {m : Member} (hs : m.form.Solid) (n : Nat) :
    Spends [] [headerName] n (m.loading n).2 (m.loading n).1.2 := by
  unfold loading
  split
  · refine ⟨⟨[], rfl, .refl _⟩, fun y hy => .inl ?_⟩
    change y ∈ [headerName, headerName, headerName] at hy
    simpa using hy
  · rename_i hvoid
    have hne : m.form ≠ .void := fun heq => hvoid (beq_iff_eq.mpr heq)
    obtain ⟨⟨stems, hcount, hnames⟩, hbound⟩ :=
      m.form.loading_spends hne hs headerName (Names.temporary "value" (n + 1)) (n + 1)
    dsimp only
    refine ⟨⟨"value" :: stems, ?_, ?_⟩, ?_⟩
    · rw [hcount, List.length_cons]
      omega
    · rw [introducedIn_case]
      exact hnames
    · rw [introducedIn_case, usedIn_case]
      intro y hy
      simp only [List.mem_cons, List.mem_append, List.not_mem_nil, or_false] at hy
      rcases hy with rfl | hy | rfl | rfl
      · exact .inl (List.mem_singleton.mpr rfl)
      · exact hbound y hy
      · exact .inr (hnames.mem_iff.mpr (List.mem_cons_self ..))
      · exact .inl (List.mem_singleton.mpr rfl)

theorem storing_spends (m : Member) (n : Nat) :
    Spends [] [] n (m.storing n).2 [(m.storing n).1] := by
  obtain ⟨⟨stems, hcount, hnames⟩, hbound⟩ := m.form.storing_spends (.field .this m.name) n
  unfold storing
  refine ⟨⟨stems, hcount, ?_⟩, ?_⟩
  · rw [introducedIn_present]
    exact hnames
  · rw [introducedIn_present, usedIn_present]
    exact hbound

end Member

/-! ## Whole procedures -/

/-- Each local that the code uses or binds is bound by one statement. -/
def BoundOnce (code : List Stmt) : Prop :=
  ∀ y ∈ usedIn code ++ introducedIn code, (introducedIn code).count y = 1

theorem BoundOnce.of_nodup {code : List Stmt} (hnodup : (introducedIn code).Nodup)
    (hbound : ∀ y ∈ usedIn code, y ∈ introducedIn code) : BoundOnce code := by
  intro y hy
  rcases List.mem_append.mp hy with hy | hy
  · exact List.count_eq_one_of_mem hnodup (hbound y hy)
  · exact List.count_eq_one_of_mem hnodup hy

namespace Record

variable {r : Record}

theorem introducedIn_decode_eq (r : Record) : introducedIn r.decode =
    headerName :: introducedIn ((numbered Member.loading r.members 0).flatMap Prod.snd) := by
  simp [introducedIn, Stmt.among_decode, Stmt.introduces, Stmt.binds]

/-- A decode procedure binds the header and every name that is given out for it. -/
theorem introducedIn_decode (hs : ∀ m ∈ r.members, m.form.Solid) :
    ∃ stems, (introducedIn r.decode).Perm (headerName :: given 0 stems) ∧
      ∀ y ∈ usedIn r.decode, y ∈ introducedIn r.decode := by
  obtain ⟨n', ⟨stems, -, hnames⟩, hbound⟩ :=
    Spends.numbered Prod.snd
      (fun (m : Member) (hm : m ∈ r.members) n => m.loading_spends (hs m hm) n) 0
  refine ⟨stems, introducedIn_decode_eq r ▸ hnames.cons _, ?_⟩
  have hused : usedIn r.decode = [headerName, headerName] ++
      usedIn ((numbered Member.loading r.members 0).flatMap Prod.snd) ++ [headerName] := by
    simp [usedIn, Stmt.among_decode, Stmt.uses]
  intro y hy
  rw [hused] at hy
  rw [introducedIn_decode_eq, List.mem_cons]
  simp only [List.mem_append, List.mem_cons, List.not_mem_nil, or_false, or_self] at hy
  rcases hy with (rfl | hy) | rfl
  · exact .inl rfl
  · exact (hbound y hy).imp_left List.mem_singleton.mp
  · exact .inl rfl

theorem nodup_introducedIn_decode (hs : ∀ m ∈ r.members, m.form.Solid) :
    (introducedIn r.decode).Nodup := by
  obtain ⟨stems, hnames, -⟩ := introducedIn_decode hs
  refine hnames.nodup_iff.mpr ?_
  exact List.nodup_cons.mpr ⟨Names.header_not_mem_given 0 stems, Names.nodup_given 0 stems⟩

theorem decode_boundOnce (hs : ∀ m ∈ r.members, m.form.Solid) : BoundOnce r.decode := by
  obtain ⟨_, -, hbound⟩ := introducedIn_decode hs
  exact .of_nodup (nodup_introducedIn_decode hs) hbound

/-- The checks before anything is sent have no locals. -/
theorem among_checks {f : Stmt → List String}
    (hsingle : ∀ struct fields, f (.requireSingleField .this struct fields) = [])
    (hpresent : ∀ field, f (.requirePresent (.field .this field) field) = []) (r : Record) :
    Stmt.among f r.checks = [] := by
  refine Stmt.among_eq_nil f fun s hs => ?_
  unfold checks at hs
  rcases List.mem_append.mp hs with hs | hs
  · split at hs
    · cases List.mem_singleton.mp hs
      simp [Stmt.walk, hsingle]
    · exact absurd hs List.not_mem_nil
  · obtain ⟨m, -, rfl⟩ := List.mem_map.mp hs
    simp [Stmt.walk, hpresent]

theorem encode_boundOnce (r : Record) : BoundOnce r.encode := by
  obtain ⟨n', ⟨stems, -, hnames⟩, hbound⟩ :=
    Spends.numbered (fun s => [s]) (fun (m : Member) (_ : m ∈ r.sent) n => m.storing_spends n) 0
  rw [List.flatMap_singleton'] at hnames hbound
  have hintro : introducedIn r.encode = introducedIn (numbered Member.storing r.sent 0) := by
    have hchecks := among_checks (f := Stmt.introduces) (fun _ _ => rfl) (fun _ => rfl) r
    simp only [introducedIn, encode, Stmt.among_append, hchecks]
    simp [Stmt.among, Stmt.walkAll, Stmt.walk, Stmt.introduces, Stmt.binds]
  have hused : usedIn r.encode = usedIn (numbered Member.storing r.sent 0) := by
    have hchecks := among_checks (f := Stmt.uses) (fun _ _ => rfl) (fun _ => rfl) r
    simp only [usedIn, encode, Stmt.among_append, hchecks]
    simp [Stmt.among, Stmt.walkAll, Stmt.walk, Stmt.uses]
  refine .of_nodup ?_ fun y hy => ?_
  · rw [hintro]
    exact hnames.nodup_iff.mpr (Names.nodup_given 0 stems)
  · rw [hused] at hy
    rw [hintro]
    exact (hbound y hy).resolve_left List.not_mem_nil

theorem solid_of_ofDefinition {t : SymbolTable} {d : StructKind × StructLike}
    (h : Record.ofDefinition t d = .ok r) : ∀ m ∈ r.members, m.form.Solid := by
  obtain ⟨ms, hms, h⟩ := Steps.except_bind_eq_ok_iff.mp h
  cases h
  intro m hm
  obtain ⟨f, -, hf⟩ := Steps.forall₂_mem_right (Steps.mapM_eq_ok_iff.mp hms) hm
  exact FieldType.solid_of_formWithin (Member.form_of_ofField hf)

end Record

/-- The procedures of a compiled struct are those of a record of the document. -/
theorem Document.procedures_of_compile {d : Document} {c : Compiled} (h : d.compile = .ok c)
    {s : StructCodec} (hs : s ∈ c.structs) :
    ∃ t carrier r, SymbolTable.ofDocument d = .ok t ∧ carrier ∈ d.carriers ∧
      Record.ofDefinition t carrier = .ok r ∧ s.decode = r.decode ∧ s.encode = r.encode := by
  obtain ⟨t, ht, h⟩ := compile_eq_ok_iff.mp h
  obtain ⟨hstructs, -, -⟩ := Compiled.ofSymbols_eq_ok_iff.mp h
  obtain ⟨carrier, hcarrier, hs⟩ :=
    Steps.forall₂_mem_right (Steps.mapM_eq_ok_iff.mp hstructs) hs
  obtain ⟨r, hr, -, hdecode, hencode⟩ := StructCodec.ofDefinition_procedures hs
  exact ⟨t, carrier, r, ht, hcarrier, hr, hdecode, hencode⟩

/-- Names that are given out never clash, whatever their stems are, and none is the header of a
field. So in the procedures of a document each local is bound by one statement of the tree, the
temporaries and the header of a decode procedure as well as what an encode procedure goes over. -/
theorem Document.locals_bound_once :
    (∀ (n : Names) (stems : List String),
      (n.freshAll stems).Nodup ∧ headerName ∉ n.freshAll stems) ∧
    ∀ (d : Document) (c : Compiled), d.compile = .ok c → ∀ s ∈ c.structs,
      BoundOnce s.decode ∧ BoundOnce s.encode ∧
        ∀ y ∈ introducedIn s.decode, y = headerName ∨ ∃ stem k, y = Names.temporary stem k := by
  refine ⟨fun n stems => ?_, fun d c h s hs => ?_⟩
  · rw [Names.freshAll_eq]
    exact ⟨Names.nodup_given _ _, Names.header_not_mem_given _ _⟩
  · obtain ⟨t, carrier, r, -, -, hr, hdecode, hencode⟩ := procedures_of_compile h hs
    have hsolid := Record.solid_of_ofDefinition hr
    rw [hdecode, hencode]
    refine ⟨Record.decode_boundOnce hsolid, r.encode_boundOnce, fun y hy => ?_⟩
    obtain ⟨stems, hnames, -⟩ := Record.introducedIn_decode hsolid
    refine (List.mem_cons.mp (hnames.mem_iff.mp hy)).imp_right fun hy => ?_
    obtain ⟨stem, k, heq, -⟩ := Names.exists_of_mem_given hy
    exact ⟨stem, k, heq⟩

namespace Document

def page : Typedef := ⟨"Page", .list (.identifier "Place")⟩

/-- Places by their pages, behind a typedef, and containers in containers. -/
def atlas : Document := ⟨[
  .structLike .struct ⟨"Place", [⟨"name", some 1, .string, .required, none, none⟩]⟩,
  (.typedef page),
  .structLike .struct ⟨"Atlas",
    [⟨"pages", some 1, .map .string (.identifier "Page"), .default, none, none⟩,
      ⟨"grids", some 2, .set (.list .i32), .default, none, none⟩]⟩]⟩

def atlasCodecs : Compiled :=
  match atlas.compile with
  | .ok c => c
  | .error _ => ⟨[], []⟩

theorem compile_atlas : atlas.compile = .ok atlasCodecs := by
  have hok : atlas.compile.toBool = true := by decide +kernel
  rcases h : atlas.compile with cause | c
  · rw [h] at hok
    cases hok
  · rw [atlasCodecs, h]

theorem locals_bound_once_atlas :
    atlas.compile = .ok atlasCodecs ∧ atlasCodecs.structs.length = 2 ∧
      ∀ s ∈ atlasCodecs.structs, BoundOnce s.decode ∧ BoundOnce s.encode := by
  refine ⟨compile_atlas, by decide +kernel, fun s hs => ?_⟩
  obtain ⟨hdecode, hencode, -⟩ := locals_bound_once.2 atlas atlasCodecs compile_atlas s hs
  exact ⟨hdecode, hencode⟩

end Document

end Thrift
