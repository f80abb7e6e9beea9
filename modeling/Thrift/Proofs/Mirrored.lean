-- Reading and writing a type mirror each other. Both follow the type in the same way, so they fail
-- alike. Where they succeed, their statements without names, expressions and the building of values
-- are the outline of the form of the type.
import Thrift.Proofs.Determined

namespace Thrift

/-! ## Outlines -/

/-- What a statement moves over the wire, without names and expressions. -/
inductive Outline
  | opens (kind : ContainerKind)
  | closes (kind : ContainerKind)
  | moves (codec : ValueCodec)
  /-- What is done for each element, with the container of which the elements are told to be. -/
  | each (kind : Option ContainerKind) (body : List Outline)
  | skips
  /-- A statement that moves no value. -/
  | other (op : String)

/-- A container around what is done for each of its elements. -/
def Outline.container (kind : ContainerKind) (body : List Outline) : List Outline :=
  [.opens kind, .each (some kind) body, .closes kind]

namespace Stmt

/-- The name that a statement binds to the size of a container. -/
def announces : Stmt → List (String × ContainerKind)
  | readContainerBegin kind metadata => [(metadata, kind)]
  | _ => []

mutual

/-- The outline of a statement. `announced` are the containers whose size is bound to a name. What
builds a value leaves no trace. -/
def outline (announced : List (String × ContainerKind)) : Stmt → List Outline
  | readContainerBegin kind _ => [.opens kind]
  | readContainerEnd kind => [.closes kind]
  | read codec _ => [.moves codec]
  | newContainer _ _ => []
  | insert _ _ _ _ => []
  | skip _ => [.skips]
  | repeated metadata _ body => [.each (announced.lookup metadata) (outlines announced body)]
  | writeContainerBegin kind _ => [.opens kind]
  | writeContainerEnd kind => [.closes kind]
  | write codec _ => [.moves codec]
  | forEach kind _ _ _ body => [.each (some kind) (outlines announced body)]
  | s => [.other s.op]

def outlines (announced : List (String × ContainerKind)) : List Stmt → List Outline
  | [] => []
  | s :: ss => s.outline announced ++ outlines (s.announces ++ announced) ss

end

theorem outlines_append (announced : List (String × ContainerKind)) (a b : List Stmt) :
    outlines announced (a ++ b) = outlines announced a ++
      outlines (a.foldl (fun known s => s.announces ++ known) announced) b := by
  induction a generalizing announced with
  | nil => rfl
  | cons s a ih => rw [List.cons_append, outlines, outlines, ih, List.append_assoc, List.foldl_cons]

@[simp] theorem outlines_insert (announced : List (String × ContainerKind)) (kind : ContainerKind)
    (x : String) (key : Option String) (v : String) :
    outlines announced [.insert kind x key v] = [] := rfl

/-- The loop is over the container whose size was bound last. -/
theorem outlines_readContainer (announced : List (String × ContainerKind)) (kind : ContainerKind)
    (m i x : String) (body : List Stmt) :
    outlines announced (Draft.readContainer kind m i x body) =
      Outline.container kind (outlines ((m, kind) :: announced) body) := by
  simp [Draft.readContainer, outlines, outline, announces, Outline.container]

theorem outlines_writeContainer (announced : List (String × ContainerKind)) (kind : ContainerKind)
    (source : Expr) (key : Option String) (v : String) (body : List Stmt) :
    outlines announced (Draft.writeContainer kind source key v body) =
      Outline.container kind (outlines announced body) := by
  simp [Draft.writeContainer, outlines, outline, announces, Outline.container]

end Stmt

open Stmt (outlines)

namespace Form

/-- What moves with a value of the form, in order. -/
def outline : Form → List Outline
  | scalar kind => [.moves (.scalar kind)]
  | struct name => [.moves (.struct name)]
  | list e => Outline.container (.list e.wireType) e.outline
  | set e => Outline.container (.set e.wireType) e.outline
  | map k e => Outline.container (.map k.wireType e.wireType) (k.outline ++ e.outline)
  | void => []

/-- No container holds void. -/
def Solid : Form → Prop
  | list e => e ≠ .void ∧ e.Solid
  | set e => e ≠ .void ∧ e.Solid
  | map k e => (k ≠ .void ∧ k.Solid) ∧ e ≠ .void ∧ e.Solid
  | _ => True

theorem outlines_loading {header : String} {form : Form} (hv : form ≠ .void) (hs : form.Solid)
    (announced : List (String × ContainerKind)) (x : String) (n : Nat) :
    outlines announced (form.loading header x n).1 = form.outline := by
  induction form generalizing announced x n with
  | scalar kind => rfl
  | struct name => rfl
  | list e ih =>
    rw [loading, Stmt.outlines_readContainer, Stmt.outlines_append, Stmt.outlines_insert,
      List.append_nil, ih hs.1 hs.2, outline]
  | set e ih =>
    rw [loading, Stmt.outlines_readContainer, Stmt.outlines_append, Stmt.outlines_insert,
      List.append_nil, ih hs.1 hs.2, outline]
  | map k e ihk ihe =>
    obtain ⟨⟨hk, hks⟩, he, hes⟩ := hs
    rw [loading, Stmt.outlines_readContainer, Stmt.outlines_append, Stmt.outlines_insert,
      List.append_nil, Stmt.outlines_append, ihk hk hks, ihe he hes, outline]
  | void => exact absurd rfl hv

theorem outlines_storing (form : Form) (announced : List (String × ContainerKind)) (source : Expr)
    (n : Nat) : outlines announced (form.storing source n).1 = form.outline := by
  induction form generalizing announced source n with
  | scalar kind => rfl
  | struct name => rfl
  | list e ih => rw [storing, Stmt.outlines_writeContainer, ih, outline]
  | set e ih => rw [storing, Stmt.outlines_writeContainer, ih, outline]
  | map k e ihk ihe =>
    rw [storing, Stmt.outlines_writeContainer, Stmt.outlines_append, ihk, ihe, outline]
  | void => rfl

end Form

/-! ## Forms of types -/

namespace FieldType

variable {t : SymbolTable} {levels : Nat} {type container element : FieldType} {form e : Form}

/-- What a container was not refused with is no void. -/
theorem element_ne_void (hw : discard (container.elementType t element) = .ok ())
    (he : element.formWithin t levels = .ok e) : e ≠ .void := by
  rcases h : container.elementType t element with fault | w
  · rw [h] at hw
    cases hw
  · exact (elementType_form h he).2

theorem solid_of_formWithin (h : type.formWithin t levels = .ok form) : form.Solid := by
  induction levels generalizing type form with
  | zero => cases h
  | succ levels ih =>
    cases type with
    | identifier name =>
      rw [formWithin] at h
      obtain ⟨shape, -, h⟩ := Steps.except_bind_eq_ok_iff.mp h
      cases shape with
      | «alias» underlying => exact ih h
      | _ =>
        cases h
        exact trivial
    | list element =>
      rw [formWithin] at h
      obtain ⟨_, hw, h⟩ := Steps.except_bind_eq_ok_iff.mp h
      obtain ⟨e, he, h⟩ := Steps.except_bind_eq_ok_iff.mp h
      cases h
      exact ⟨element_ne_void hw he, ih he⟩
    | set element =>
      rw [formWithin] at h
      obtain ⟨_, hw, h⟩ := Steps.except_bind_eq_ok_iff.mp h
      obtain ⟨e, he, h⟩ := Steps.except_bind_eq_ok_iff.mp h
      cases h
      exact ⟨element_ne_void hw he, ih he⟩
    | map key element =>
      rw [formWithin] at h
      obtain ⟨_, hkw, h⟩ := Steps.except_bind_eq_ok_iff.mp h
      obtain ⟨_, hw, h⟩ := Steps.except_bind_eq_ok_iff.mp h
      obtain ⟨k, hk, h⟩ := Steps.except_bind_eq_ok_iff.mp h
      obtain ⟨e, he, h⟩ := Steps.except_bind_eq_ok_iff.mp h
      cases h
      exact ⟨⟨element_ne_void hkw hk, ih hk⟩, element_ne_void hw he, ih he⟩
    | _ =>
      cases h
      exact trivial

end FieldType

/-! ## Drafts that fail as a check does -/

namespace Draft

variable {α β γ δ : Type} {header : Option String}

/-- A draft and a check end with the same fault, or both succeed; the draft keeps the header. -/
inductive EndsAlike (header : Option String) :
    EStateM.Result CodegenError DraftState α → Except CodegenError β → Prop
  | refused (fault : CodegenError) (st : DraftState) :
      EndsAlike header (.error fault st) (.error fault)
  | done (a : α) {st : DraftState} (b : β) (h : st.header = header) :
      EndsAlike header (.ok a st) (.ok b)

/-- In every state with this header, the draft fails as the check does. -/
def EndsAs (header : Option String) (m : Drafting α) (check : Except CodegenError β) : Prop :=
  ∀ st, st.header = header → EndsAlike header (m st) check

namespace EndsAs

variable {check : Except CodegenError β}

theorem pure (a : α) (b : β) : EndsAs header (pure a) (.ok b) := fun _ hst => .done a b hst

theorem refuse (type : FieldType) :
    EndsAs header (refuse type : Drafting α) (.error type.tooDeep : Except CodegenError β) :=
  fun _ _ => .refused _ _

theorem bind {m : Drafting α} {f : α → Drafting γ} {g : β → Except CodegenError δ}
    (h : EndsAs header m check) (hf : ∀ a b, EndsAs header (f a) (g b)) :
    EndsAs header (m >>= f) (check >>= g) := by
  intro st hst
  have hm := h st hst
  generalize hr : m st = r at hm
  cases hm with
  | refused fault st' =>
    rw [Steps.bind_error hr]
    exact .refused fault st'
  | done a b hst' =>
    rw [Steps.bind_ok hr]
    exact hf a b _ hst'

/-- What the check goes on with, the draft goes on with as well. -/
theorem checked {r : Except CodegenError α} {f : α → Drafting γ} {g : α → Except CodegenError β}
    (h : ∀ a, EndsAs header (f a) (g a)) : EndsAs header (ofExcept r >>= f) (r >>= g) := by
  intro st hst
  rcases r with fault | a
  · exact .refused fault st
  · exact h a st hst

theorem discarded {r : Except CodegenError α} {f : α → Drafting γ}
    (h : ∀ a, EndsAs header (f a) check) :
    EndsAs header (ofExcept r >>= f) (discard r >>= fun _ => check) := by
  intro st hst
  rcases r with fault | a
  · exact .refused fault st
  · exact h a st hst

/-- Giving out a name never fails. -/
theorem named {stem : String} {f : String → Drafting α} (h : ∀ x, EndsAs header (f x) check) :
    EndsAs header (fresh stem >>= f) check := fun st hst => h _ (issue st stem) hst

end EndsAs

variable {t : SymbolTable}

/-- A read is refused as the form of its type is. -/
theorem readWithin_endsAs (bound : String) (levels : Nat) (type : FieldType) (x : String) :
    EndsAs (some bound) (readWithin t levels type x) (type.formWithin t levels) := by
  induction levels generalizing type x with
  | zero => exact .refuse type
  | succ levels ih =>
    cases type with
    | identifier name =>
      rw [readWithin, FieldType.formWithin]
      refine .checked fun shape => ?_
      cases shape with
      | «alias» underlying => exact ih underlying x
      | _ => exact .pure _ _
    | list element =>
      rw [readWithin, FieldType.formWithin]
      refine .discarded fun _ => .named fun _ => .named fun _ => .named fun v => ?_
      exact (ih element v).bind fun _ _ => .pure _ _
    | set element =>
      rw [readWithin, FieldType.formWithin]
      refine .discarded fun _ => .named fun _ => .named fun _ => .named fun v => ?_
      exact (ih element v).bind fun _ _ => .pure _ _
    | map key element =>
      rw [readWithin, FieldType.formWithin]
      refine .discarded fun _ => .discarded fun _ => ?_
      refine .named fun _ => .named fun _ => .named fun kn => .named fun v => ?_
      exact (ih key kn).bind fun _ _ => (ih element v).bind fun _ _ => .pure _ _
    | void =>
      intro st hst
      obtain ⟨names, _, excess⟩ := st
      cases hst
      exact .done _ _ rfl
    | _ => exact .pure _ _

/-- A write is refused as the form of its type is. -/
theorem writeWithin_endsAs (header : Option String) (levels : Nat) (type : FieldType)
    (source : Expr) :
    EndsAs header (writeWithin t levels type source) (type.formWithin t levels) := by
  induction levels generalizing type source with
  | zero => exact .refuse type
  | succ levels ih =>
    cases type with
    | identifier name =>
      rw [writeWithin, FieldType.formWithin]
      refine .checked fun shape => ?_
      cases shape with
      | «alias» underlying => exact ih underlying source
      | _ => exact .pure _ _
    | list element =>
      rw [writeWithin, FieldType.formWithin]
      refine .discarded fun _ => .named fun v => ?_
      exact (ih element (.bound v)).bind fun _ _ => .pure _ _
    | set element =>
      rw [writeWithin, FieldType.formWithin]
      refine .discarded fun _ => .named fun v => ?_
      exact (ih element (.bound v)).bind fun _ _ => .pure _ _
    | map key element =>
      rw [writeWithin, FieldType.formWithin]
      refine .discarded fun _ => .discarded fun _ => .named fun kn => .named fun v => ?_
      exact (ih key (.bound kn)).bind fun _ _ => (ih element (.bound v)).bind fun _ _ => .pure _ _
    | _ => exact .pure _ _

/-! ## Mirror images -/

/-- At one depth, the read and the write of a type fail with the same fault or both succeed. Then
their statements are the outline of the form of the type, but for a void, which is passed over when
it is read and is nothing when it is written. -/
theorem write_mirrors_read (t : SymbolTable) (type : FieldType) (x : String) (source : Expr)
    {header : String} {st st' : DraftState} (hh : st.header = some header)
    (hd : st.excess = st'.excess) :
    (∃ fault s s', read t type x st = .error fault s ∧ write t type source st' = .error fault s') ∨
      ∃ form code s code' s', type.formWithin t (maxTypeDepth - st.excess) = .ok form ∧
        read t type x st = .ok code s ∧ write t type source st' = .ok code' s' ∧
          if form = .void then code = [.skip header] ∧ code' = []
          else outlines [] code = form.outline ∧ outlines [] code' = form.outline := by
  have hread : EndsAlike _ (read t type x st) _ :=
    readWithin_endsAs header (maxTypeDepth - st.excess) type x st hh
  have hwrite : EndsAlike _ (write t type source st') _ :=
    writeWithin_endsAs st'.header (maxTypeDepth - st'.excess) type source st' rfl
  rw [← hd] at hwrite
  generalize hcheck : type.formWithin t (maxTypeDepth - st.excess) = check at hread hwrite
  generalize hr : read t type x st = r at hread ⊢
  generalize hw : write t type source st' = w at hwrite ⊢
  cases hread with
  | refused fault s =>
    cases hwrite with
    | refused _ s' => exact .inl ⟨fault, s, s', rfl, rfl⟩
  | @done code s form hs =>
    cases hwrite with
    | @done code' s' _ hs' =>
      have hloading := congrArg Prod.fst (readWithin_eq_loading hcheck hh hr)
      have hstoring := congrArg Prod.fst (writeWithin_eq_storing hcheck hw)
      refine .inr ⟨form, code, s, code', s', rfl, rfl, rfl, ?_⟩
      dsimp only at hloading hstoring
      rw [← hloading, ← hstoring]
      split
      · rename_i hvoid
        rw [hvoid]
        exact ⟨rfl, rfl⟩
      · rename_i hvoid
        exact ⟨form.outlines_loading hvoid (FieldType.solid_of_formWithin hcheck) _ _ _,
          form.outlines_storing _ _ _⟩

def row : Typedef := ⟨"Row", .list (.identifier "Crate")⟩

/-- Rows of crates: a struct, and a typedef for a list of it. -/
def crates : SymbolTable := ⟨[.structLike .struct ⟨"Crate", []⟩, (.typedef row)]⟩

/-- Rows of crates by their names, read into a name that is given out later as well. -/
theorem write_mirrors_read_crates :
    ∃ code s code' s',
      read crates (.map .string (.identifier "Row")) "value_4" ⟨.empty, some "ret", 3⟩ =
        .ok code s ∧
      write crates (.map .string (.identifier "Row")) .this ⟨.empty, none, 3⟩ = .ok code' s' ∧
      outlines [] code = outlines [] code' ∧
      outlines [] code = Outline.container (.map .string .list)
        (.moves (.scalar .string) ::
          Outline.container (.list .struct) [.moves (.struct "Crate")]) := by
  let reading : DraftState := ⟨.empty, some "ret", 3⟩
  let writing : DraftState := ⟨.empty, none, 3⟩
  have hh : reading.header = some "ret" := rfl
  have hd : reading.excess = writing.excess := rfl
  rcases write_mirrors_read crates (.map .string (.identifier "Row")) "value_4" .this hh hd with
    ⟨_, _, _, hr, -⟩ | ⟨form, code, s, code', s', hform, hr, hw, hcode⟩
  · cases hr
  · cases hform
    obtain ⟨hread, hwrite⟩ := hcode
    exact ⟨code, s, code', s', hr, hw, hread.trans hwrite.symm, hread⟩

end Draft

end Thrift
