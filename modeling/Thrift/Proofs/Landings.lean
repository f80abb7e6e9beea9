-- Where the locals of a decode procedure end up. A local that is staged becomes a field, and one
-- that is put into a container becomes a part of what the container becomes. In drafted code each
-- local is kept by one statement, so it lands in one field, at one position.
import Mathlib.Data.List.Perm.Subperm
import Mathlib.Data.List.Pairwise
import Thrift.Proofs.Bindings
import Thrift.Proofs.Sweeps

namespace Thrift

open StructCodec (headerName)
open Script (Step)
open Stmt (walkAll among introducedIn)

/-! ## Positions -/

/-- The local becomes the part of a field at a position. -/
inductive Lands (code : List Stmt) : String → String → List Step → Prop
  | staged {field value : String} (h : .stage field value ∈ walkAll code) :
      Lands code value field []
  | element {kind : ContainerKind} {container value field : String} {key : Option String}
      {steps : List Step} (h : .insert kind container key value ∈ walkAll code)
      (hc : Lands code container field steps) : Lands code value field (steps ++ [.element])
  | key {kind : ContainerKind} {container key value field : String} {steps : List Step}
      (h : .insert kind container (some key) value ∈ walkAll code)
      (hc : Lands code container field steps) : Lands code key field (steps ++ [.key])

/-- The locals that a statement puts somewhere. -/
def Stmt.keeps : Stmt → List String
  | stage _ value => [value]
  | insert _ _ key value => key.toList ++ [value]
  | _ => []

/-- The locals that statements put somewhere, at any depth. -/
def Stmt.keptIn (code : List Stmt) : List String := among keeps code

open Stmt (keptIn)

section Unique

variable {code : List Stmt} {x : String}

/-- Where no local is kept twice, one statement keeps it. -/
theorem eq_of_keeps (h : (keptIn code).Nodup) {a b : Stmt} (ha : a ∈ walkAll code)
    (hb : b ∈ walkAll code) (hxa : x ∈ a.keeps) (hxb : x ∈ b.keeps) : a = b := by
  by_contra hne
  have hsymm : Std.Symm (Function.onFun List.Disjoint Stmt.keeps) :=
    ⟨fun _ _ h => List.disjoint_symm h⟩
  exact (List.nodup_flatMap.mp h).2.forall ha hb hne hxa hxb

theorem mem_keeps_value (kind : ContainerKind) (container : String) (key : Option String)
    (value : String) : value ∈ (Stmt.insert kind container key value).keeps :=
  List.mem_append_right _ (List.mem_singleton.mpr rfl)

theorem mem_keeps_key (kind : ContainerKind) (container key value : String) :
    key ∈ (Stmt.insert kind container (some key) value).keeps := List.mem_cons_self ..

/-- The key of an insertion is not its value. -/
theorem key_ne_value (h : (keptIn code).Nodup) {kind : ContainerKind} {container key value : String}
    (hs : .insert kind container (some key) value ∈ walkAll code) : key ≠ value := by
  have hpair : [key, value].Nodup := (List.nodup_flatMap.mp h).1 _ hs
  simpa using hpair

theorem Lands.unique (h : (keptIn code).Nodup) {field field' : String} {steps steps' : List Step}
    (hx : Lands code x field steps) (hx' : Lands code x field' steps') :
    field = field' ∧ steps = steps' := by
  -- The statement that keeps the local is the same in both derivations, and tells the last step.
  induction hx generalizing field' steps' with
  | staged hs =>
    cases hx' with
    | staged hs' =>
      cases eq_of_keeps h hs hs' (List.mem_cons_self ..) (List.mem_cons_self ..)
      exact ⟨rfl, rfl⟩
    | element hs' _ =>
      cases eq_of_keeps h hs hs' (List.mem_cons_self ..) (mem_keeps_value ..)
    | key hs' _ => cases eq_of_keeps h hs hs' (List.mem_cons_self ..) (mem_keeps_key ..)
  | element hs _ ih =>
    cases hx' with
    | staged hs' =>
      cases eq_of_keeps h hs hs' (mem_keeps_value ..) (List.mem_cons_self ..)
    | element hs' hc' =>
      cases eq_of_keeps h hs hs' (mem_keeps_value ..) (mem_keeps_value ..)
      obtain ⟨rfl, rfl⟩ := ih hc'
      exact ⟨rfl, rfl⟩
    | key hs' _ =>
      cases eq_of_keeps h hs hs' (mem_keeps_value ..) (mem_keeps_key ..)
      exact absurd rfl (key_ne_value h hs')
  | key hs _ ih =>
    cases hx' with
    | staged hs' => cases eq_of_keeps h hs hs' (mem_keeps_key ..) (List.mem_cons_self ..)
    | element hs' _ =>
      cases eq_of_keeps h hs hs' (mem_keeps_key ..) (mem_keeps_value ..)
      exact absurd rfl (key_ne_value h hs)
    | key hs' hc' =>
      cases eq_of_keeps h hs hs' (mem_keeps_key ..) (mem_keeps_key ..)
      obtain ⟨rfl, rfl⟩ := ih hc'
      exact ⟨rfl, rfl⟩

end Unique

/-! ## What is kept in drafted code -/

theorem Stmt.keptIn_append (a b : List Stmt) : keptIn (a ++ b) = keptIn a ++ keptIn b :=
  among_append _ a b

@[simp] theorem Stmt.keptIn_insert (body : List Stmt) (kind : ContainerKind) (x : String)
    (key : Option String) (v : String) :
    keptIn (body ++ [.insert kind x key v]) = keptIn body ++ (key.toList ++ [v]) := by
  rw [keptIn_append]
  exact congrArg (keptIn body ++ ·) (List.append_nil _)

theorem Stmt.keptIn_case (header field value : String) (w : WireType) (code : List Stmt) :
    keptIn [.ifWireType header w (code ++ [.stage field value]) [.skip header]] =
      keptIn code ++ [value] := by
  simp [keptIn, among, walkAll, walk, walkAll_append, keeps]

/-- What is kept on the way into a container is bound there, and the container is bound besides. -/
theorem keptIn_readContainer {body : List Stmt} (kind : ContainerKind) (m i x : String)
    (h : (keptIn body).Subperm (introducedIn body)) :
    (x :: keptIn (Draft.readContainer kind m i x body)).Subperm
      (introducedIn (Draft.readContainer kind m i x body)) := by
  have hkept : keptIn (Draft.readContainer kind m i x body) = keptIn body := by
    simp [keptIn, Stmt.among_readContainer, Stmt.keeps]
  rw [hkept, Stmt.introducedIn_readContainer]
  exact ((List.subperm_cons x).mpr (h.cons_right i)).cons_right m

/-- What loads a value into a local keeps other locals, those that it binds, each of them once. -/
theorem Form.keptIn_loading {form : Form} (hv : form ≠ .void) (hs : form.Solid)
    (header x : String) (n : Nat) : (x :: keptIn (form.loading header x n).1).Subperm
      (introducedIn (form.loading header x n).1) := by
  induction form generalizing x n with
  | scalar kind => exact .refl [x]
  | struct name => exact .refl [x]
  | list e ih =>
    rw [loading]
    refine keptIn_readContainer _ _ _ _ ?_
    rw [Stmt.keptIn_insert, Stmt.introducedIn_insert]
    exact (List.perm_append_singleton _ _).subperm.trans (ih hs.1 hs.2 _ _)
  | set e ih =>
    rw [loading]
    refine keptIn_readContainer _ _ _ _ ?_
    rw [Stmt.keptIn_insert, Stmt.introducedIn_insert]
    exact (List.perm_append_singleton _ _).subperm.trans (ih hs.1 hs.2 _ _)
  | map k e ihk ihe =>
    obtain ⟨⟨hk, hks⟩, he, hes⟩ := hs
    rw [loading]
    refine keptIn_readContainer _ _ _ _ ?_
    rw [Stmt.keptIn_insert, Stmt.introducedIn_insert, Stmt.keptIn_append,
      Stmt.introducedIn_append]
    refine List.Subperm.trans (List.Perm.subperm ?_) ((ihk hk hks _ _).append (ihe he hes _ _))
    have hperm : ∀ (a b : List String) (key value : String),
        (a ++ b ++ [key, value]).Perm (key :: a ++ value :: b) := by
      intro a b key value
      have hmiddle : (key :: value :: (a ++ b)).Perm (key :: (a ++ value :: b)) :=
        List.perm_middle.symm.cons key
      exact List.perm_append_comm.trans hmiddle
    exact hperm _ _ _ _
  | void => exact absurd rfl hv

theorem Member.keptIn_loading {m : Member} (hs : m.form.Solid) (n : Nat) :
    (keptIn (m.loading n).1.2).Subperm (introducedIn (m.loading n).1.2) := by
  unfold loading
  split
  · exact List.nil_subperm
  · rename_i hvoid
    have hne : m.form ≠ .void := fun heq => hvoid (beq_iff_eq.mpr heq)
    dsimp only
    rw [Stmt.keptIn_case, Stmt.introducedIn_case]
    exact (List.perm_append_singleton _ _).subperm.trans (m.form.keptIn_loading hne hs _ _ _)

namespace Record

variable {r : Record}

theorem keptIn_numbered {ms : List Member} (hs : ∀ m ∈ ms, m.form.Solid) (n : Nat) :
    (keptIn ((numbered Member.loading ms n).flatMap Prod.snd)).Subperm
      (introducedIn ((numbered Member.loading ms n).flatMap Prod.snd)) := by
  induction ms generalizing n with
  | nil => exact .refl []
  | cons m ms ih =>
    obtain ⟨hm, hms⟩ := List.forall_mem_cons.mp hs
    rw [numbered, List.flatMap_cons, Stmt.keptIn_append, Stmt.introducedIn_append]
    exact (Member.keptIn_loading hm n).append (ih hms _)

/-- A decode procedure keeps no local twice. -/
theorem nodup_keptIn_decode (hs : ∀ m ∈ r.members, m.form.Solid) : (keptIn r.decode).Nodup := by
  have hkept : keptIn r.decode =
      keptIn ((numbered Member.loading r.members 0).flatMap Prod.snd) := by
    simp [keptIn, Stmt.among_decode, Stmt.keeps]
  have hbound := nodup_introducedIn_decode hs
  rw [introducedIn_decode_eq] at hbound
  obtain ⟨kept, hperm, hsub⟩ := keptIn_numbered hs 0
  rw [hkept]
  exact hperm.nodup_iff.mp ((List.nodup_cons.mp hbound).2.sublist hsub)

end Record

/-! ## The statements of a decode procedure -/

section Walks

variable {α β : Type} {code : α → Nat → β × Nat} {as : List α} {n : Nat}

theorem exists_of_mem_numbered {b : β} (h : b ∈ numbered code as n) :
    ∃ a ∈ as, ∃ k, b = (code a k).1 := by
  induction as generalizing n with
  | nil => cases h
  | cons a as ih =>
    rcases List.mem_cons.mp h with rfl | h
    · exact ⟨a, List.mem_cons_self .., n, rfl⟩
    · obtain ⟨a', ha', hb⟩ := ih h
      exact ⟨a', List.mem_cons_of_mem a ha', hb⟩

theorem exists_mem_numbered (code : α → Nat → β × Nat) {a : α} (h : a ∈ as) (n : Nat) :
    ∃ k, (code a k).1 ∈ numbered code as n := by
  induction as generalizing n with
  | nil => cases h
  | cons a' as ih =>
    rcases List.mem_cons.mp h with rfl | h
    · exact ⟨n, List.mem_cons_self ..⟩
    · obtain ⟨k, hk⟩ := ih h (code a' n).2
      exact ⟨k, List.mem_cons_of_mem _ hk⟩

theorem Stmt.mem_walkAll_flatMap {stmts : α → List Stmt} {s : Stmt} :
    s ∈ walkAll (as.flatMap stmts) ↔ ∃ a ∈ as, s ∈ walkAll (stmts a) := by
  induction as with
  | nil => simp [walkAll]
  | cons a as ih =>
    rw [List.flatMap_cons, walkAll_append, List.mem_append, ih, List.exists_mem_cons_iff]

end Walks

theorem Stmt.walkAll_readContainer (kind : ContainerKind) (m i x : String) (body : List Stmt) :
    walkAll (Draft.readContainer kind m i x body) = .readContainerBegin kind m ::
      .newContainer kind x :: .repeated m i body :: (walkAll body ++ [.readContainerEnd kind]) := by
  simp [Draft.readContainer, walkAll, walk]

/-- What is done with a field whose tag is the expected one. -/
theorem Stmt.walkAll_case (header field value : String) (w : WireType) (code : List Stmt) :
    walkAll [.ifWireType header w (code ++ [.stage field value]) [.skip header]] =
      .ifWireType header w (code ++ [.stage field value]) [.skip header] ::
        (walkAll code ++ [.stage field value, .skip header]) := by
  simp [walkAll, walk, walkAll_append]

/-- The statements of the cases stand between those of the handling of headers. -/
theorem Record.walkAll_decode (r : Record) : walkAll r.decode =
    [.readStructBegin, .loop (StructCodec.fieldLoop (numbered Member.loading r.members 0)),
      .readFieldBegin headerName, .breakIfStop headerName,
      .switch headerName (numbered Member.loading r.members 0) [.skip headerName]] ++
      walkAll ((numbered Member.loading r.members 0).flatMap Prod.snd) ++
      [.skip headerName, .readFieldEnd, .readStructEnd,
        .construct r.name r.kind (r.sent.map Member.toInit)] := by
  simp [decode, StructCodec.fieldLoop, walkAll, Stmt.walk, Stmt.walkCases_eq]

end Thrift
