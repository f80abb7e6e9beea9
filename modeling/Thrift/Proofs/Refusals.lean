-- What a refused draft leaves behind. A draft keeps the header whatever becomes of it, and it keeps
-- the levels unless a type was nested too deeply, which takes one level from everything that is
-- drafted later in the same state.
import Thrift.Proofs.Mirrored
import Thrift.Proofs.Typedefs

namespace Thrift

/-! ## Faults of depth -/

/-- The fault is that a type is nested too deeply. -/
def CodegenError.isOfDepth : CodegenError → Bool
  | .procedure (.typeTooDeep _ _) => true
  | _ => false

/-- How many levels a fault takes away for good. -/
def CodegenError.toll (fault : CodegenError) : Nat := if fault.isOfDepth then 1 else 0

namespace SymbolTable

variable {t : SymbolTable} {name : String} {fault : CodegenError}

theorem toll_of_shape (h : t.shape name = .error fault) : fault.toll = 0 := by
  unfold shape at h
  split at h <;> cases h <;> rfl

/-- What a typedef stands for is no typedef again. -/
theorem final_of_shape {underlying : FieldType} (h : t.shape name = .ok (.alias underlying)) :
    t.Final underlying := by
  rcases shape_cases h with ⟨_, _, -, ⟨⟩⟩ | ⟨_, -, ⟨⟩⟩ | ⟨d, u, -, hu, ⟨⟩⟩
  exact final_of_follow hu

end SymbolTable

namespace FieldType

variable {t : SymbolTable} {type container element : FieldType} {fault : CodegenError}

theorem toll_of_wireTypeWithin_final {levels : Nat} (hfinal : t.Final type)
    (h : type.wireTypeWithin t (levels + 1) = .error fault) : fault.toll = 0 := by
  cases type with
  | identifier name =>
    rw [wireTypeWithin] at h
    rcases Steps.except_bind_eq_error_iff.mp h with h | ⟨shape, hs, h⟩
    · exact SymbolTable.toll_of_shape h
    · rcases SymbolTable.shape_cases hs with ⟨_, _, -, rfl⟩ | ⟨_, -, rfl⟩ | ⟨d, u, hd, -, rfl⟩
      · cases h
      · cases h
      · have htypedef := SymbolTable.typedef?_eq_some_iff.mpr hd
        rw [hfinal name rfl] at htypedef
        cases htypedef
  | _ => cases h

/-- A tag is at most one typedef away, so finding it never reaches the limit. -/
theorem toll_of_wireType (h : type.wireType t = .error fault) : fault.toll = 0 := by
  rw [wireType] at h
  cases type with
  | identifier name =>
    rw [wireTypeWithin] at h
    rcases Steps.except_bind_eq_error_iff.mp h with h | ⟨shape, hs, h⟩
    · exact SymbolTable.toll_of_shape h
    · cases shape with
      | «alias» underlying =>
        exact toll_of_wireTypeWithin_final (SymbolTable.final_of_shape hs) h
      | _ => cases h
  | _ => cases h

theorem toll_of_elementType (h : container.elementType t element = .error fault) :
    fault.toll = 0 := by
  rw [elementType] at h
  rcases Steps.except_bind_eq_error_iff.mp h with h | ⟨w, -, h⟩
  · exact toll_of_wireType h
  · cases w <;> cases h
    rfl

end FieldType

/-! ## Drafts in step -/

namespace Draft

variable {α β γ δ : Type}

/-- The state has the header of an earlier one, and so many levels less. -/
structure LeftBy (toll : Nat) (st s : DraftState) : Prop where
  header_eq : s.header = st.header
  excess_eq : s.excess = st.excess + toll

theorem LeftBy.refl (st : DraftState) : LeftBy 0 st st := ⟨rfl, rfl⟩

theorem LeftBy.trans {toll : Nat} {a b c : DraftState} (h : LeftBy 0 a b) (h' : LeftBy toll b c) :
    LeftBy toll a c :=
  ⟨h'.header_eq.trans h.header_eq, by rw [h'.excess_eq, h.excess_eq, Nat.add_zero]⟩

/-- Two drafts end with the same fault or both without one. The header is kept, and no level is
lost except by the toll of the fault. -/
inductive EndInStep (st st' : DraftState) : EStateM.Result CodegenError DraftState α →
    EStateM.Result CodegenError DraftState β → Prop
  | refused (fault : CodegenError) {s s' : DraftState} (h : LeftBy fault.toll st s)
      (h' : LeftBy fault.toll st' s') : EndInStep st st' (.error fault s) (.error fault s')
  | done (a : α) (b : β) {s s' : DraftState} (h : LeftBy 0 st s) (h' : LeftBy 0 st' s') :
      EndInStep st st' (.ok a s) (.ok b s')

/-- From any two states with one header, two drafts end in step. -/
def InStep (m : Drafting α) (m' : Drafting β) : Prop :=
  ∀ st st', st.header = st'.header → EndInStep st st' (m st) (m' st')

namespace InStep

theorem pure (a : α) (b : β) : InStep (pure a) (pure b) :=
  fun st st' _ => .done a b (.refl st) (.refl st')

theorem refuse (type : FieldType) : InStep (refuse type : Drafting α) (refuse type : Drafting β) :=
  fun _ _ _ => .refused type.tooDeep ⟨rfl, rfl⟩ ⟨rfl, rfl⟩

theorem bind {m : Drafting α} {m' : Drafting β} {f : α → Drafting γ} {f' : β → Drafting δ}
    (h : InStep m m') (hf : ∀ a b, InStep (f a) (f' b)) : InStep (m >>= f) (m' >>= f') := by
  intro st st' hst
  have hm := h st st' hst
  generalize hr : m st = r at hm
  generalize hr' : m' st' = r' at hm
  cases hm with
  | refused fault hs hs' =>
    rw [Steps.bind_error hr, Steps.bind_error hr']
    exact .refused fault hs hs'
  | @done a b s s' hs hs' =>
    rw [Steps.bind_ok hr, Steps.bind_ok hr']
    have hheader : s.header = s'.header := hs.header_eq.trans (hst.trans hs'.header_eq.symm)
    have hrest := hf a b s s' hheader
    generalize f a s = q at hrest ⊢
    generalize f' b s' = q' at hrest ⊢
    cases hrest with
    | refused fault hq hq' => exact .refused fault (hs.trans hq) (hs'.trans hq')
    | done c d hq hq' => exact .done c d (hs.trans hq) (hs'.trans hq')

/-- A check that never fails for depth costs nothing. -/
theorem checked {r : Except CodegenError α} {f : α → Drafting γ} {f' : α → Drafting δ}
    (hr : ∀ fault, r = .error fault → fault.toll = 0) (h : ∀ a, r = .ok a → InStep (f a) (f' a)) :
    InStep (ofExcept r >>= f) (ofExcept r >>= f') := by
  intro st st' hst
  rcases hr' : r with fault | a
  · have htoll := hr fault hr'
    exact .refused fault ⟨rfl, by rw [htoll, Nat.add_zero]⟩ ⟨rfl, by rw [htoll, Nat.add_zero]⟩
  · exact h a hr' st st' hst

theorem named {stem : String} {f : String → Drafting γ} {f' : String → Drafting δ}
    (h : ∀ x y, InStep (f x) (f' y)) : InStep (fresh stem >>= f) (fresh stem >>= f') :=
  bind (fun st st' _ => .done _ _ (⟨rfl, rfl⟩ : LeftBy 0 st (issue st stem))
    (⟨rfl, rfl⟩ : LeftBy 0 st' (issue st' stem))) h

end InStep

variable {t : SymbolTable}

theorem readWithin_inStep (levels : Nat) (type : FieldType) (x y : String) :
    InStep (readWithin t levels type x) (readWithin t levels type y) := by
  induction levels generalizing type x y with
  | zero => exact .refuse type
  | succ levels ih =>
    cases type with
    | identifier name =>
      rw [readWithin, readWithin]
      refine .checked (fun _ => SymbolTable.toll_of_shape) fun shape _ => ?_
      cases shape with
      | «alias» underlying => exact ih underlying x y
      | _ => exact .pure _ _
    | list element =>
      rw [readWithin, readWithin]
      refine .checked (fun _ => FieldType.toll_of_elementType) fun w _ => ?_
      refine .named fun _ _ => .named fun _ _ => .named fun v v' => ?_
      exact (ih element v v').bind fun _ _ => .pure _ _
    | set element =>
      rw [readWithin, readWithin]
      refine .checked (fun _ => FieldType.toll_of_elementType) fun w _ => ?_
      refine .named fun _ _ => .named fun _ _ => .named fun v v' => ?_
      exact (ih element v v').bind fun _ _ => .pure _ _
    | map key element =>
      rw [readWithin, readWithin]
      refine .checked (fun _ => FieldType.toll_of_elementType) fun w _ => ?_
      refine .checked (fun _ => FieldType.toll_of_elementType) fun w' _ => ?_
      refine .named fun _ _ => .named fun _ _ => .named fun kn kn' => .named fun v v' => ?_
      exact (ih key kn kn').bind fun _ _ => (ih element v v').bind fun _ _ => .pure _ _
    | void =>
      rintro ⟨names, header, excess⟩ ⟨names', _, excess'⟩ ⟨⟩
      cases header with
      | none => exact .refused (.procedure .voidOutsideField) ⟨rfl, rfl⟩ ⟨rfl, rfl⟩
      | some header => exact .done _ _ (.refl _) (.refl _)
    | _ => exact .pure _ _

theorem writeWithin_inStep (levels : Nat) (type : FieldType) (source source' : Expr) :
    InStep (writeWithin t levels type source) (writeWithin t levels type source') := by
  induction levels generalizing type source source' with
  | zero => exact .refuse type
  | succ levels ih =>
    cases type with
    | identifier name =>
      rw [writeWithin, writeWithin]
      refine .checked (fun _ => SymbolTable.toll_of_shape) fun shape _ => ?_
      cases shape with
      | «alias» underlying => exact ih underlying source source'
      | _ => exact .pure _ _
    | list element =>
      rw [writeWithin, writeWithin]
      refine .checked (fun _ => FieldType.toll_of_elementType) fun w _ => .named fun v v' => ?_
      exact (ih element (.bound v) (.bound v')).bind fun _ _ => .pure _ _
    | set element =>
      rw [writeWithin, writeWithin]
      refine .checked (fun _ => FieldType.toll_of_elementType) fun w _ => .named fun v v' => ?_
      exact (ih element (.bound v) (.bound v')).bind fun _ _ => .pure _ _
    | map key element =>
      rw [writeWithin, writeWithin]
      refine .checked (fun _ => FieldType.toll_of_elementType) fun w _ => ?_
      refine .checked (fun _ => FieldType.toll_of_elementType) fun w' _ => ?_
      refine .named fun kn kn' => .named fun v v' => ?_
      exact (ih key (.bound kn) (.bound kn')).bind fun _ _ =>
        (ih element (.bound v) (.bound v')).bind fun _ _ => .pure _ _
    | _ => exact .pure _ _

/-! ## Runs of calls -/

/-- A call for the statements that read one value, or that write one. -/
inductive Call
  | read (type : FieldType) (target : String)
  | write (type : FieldType) (source : Expr)

namespace Call

def draft (t : SymbolTable) : Call → Drafting (List Stmt)
  | read type target => Draft.read t type target
  | write type source => Draft.write t type source

/-- What a call is refused for. -/
def fault? (t : SymbolTable) (c : Call) (st : DraftState) : Option CodegenError :=
  match c.draft t st with
  | .ok _ _ => none
  | .error fault _ => some fault

/-- The state behind a call, refused or not. -/
def next (t : SymbolTable) (st : DraftState) (c : Call) : DraftState :=
  match c.draft t st with
  | .ok _ s => s
  | .error _ s => s

/-- What a call is refused for depends on the header and on the levels that were lost, and so does
what it costs. -/
theorem draft_inStep (c : Call) {st st' : DraftState} (hheader : st.header = st'.header)
    (hexcess : st.excess = st'.excess) : EndInStep st st' (c.draft t st) (c.draft t st') := by
  cases c with
  | read type target =>
    change EndInStep st st' (readWithin t (maxTypeDepth - st.excess) type target st)
      (readWithin t (maxTypeDepth - st'.excess) type target st')
    rw [hexcess]
    exact readWithin_inStep _ type target target st st' hheader
  | write type source =>
    change EndInStep st st' (writeWithin t (maxTypeDepth - st.excess) type source st)
      (writeWithin t (maxTypeDepth - st'.excess) type source st')
    rw [hexcess]
    exact writeWithin_inStep _ type source source st st' hheader

theorem fault?_congr (c : Call) {st st' : DraftState} (hheader : st.header = st'.header)
    (hexcess : st.excess = st'.excess) : c.fault? t st = c.fault? t st' := by
  have h := c.draft_inStep (t := t) hheader hexcess
  unfold fault?
  generalize c.draft t st = r at h ⊢
  generalize c.draft t st' = r' at h ⊢
  cases h <;> rfl

/-- The step law: a call costs what it is refused for. -/
theorem next_leftBy (c : Call) (st : DraftState) :
    LeftBy ((c.fault? t st).elim 0 CodegenError.toll) st (c.next t st) := by
  have h := c.draft_inStep (t := t) (rfl : st.header = st.header) rfl
  unfold fault? next
  generalize c.draft t st = r at h ⊢
  cases h with
  | refused fault h _ => exact h
  | done a b h _ => exact h

end Call

/-- The state behind calls, one after the other. -/
def run (t : SymbolTable) (st : DraftState) (calls : List Call) : DraftState :=
  calls.foldl (Call.next t) st

/-- What the calls of a run are refused for. -/
def faults (t : SymbolTable) : DraftState → List Call → List CodegenError
  | _, [] => []
  | st, c :: calls => (c.fault? t st).toList ++ faults t (c.next t st) calls

theorem run_leftBy (st : DraftState) (calls : List Call) :
    LeftBy ((faults t st calls).countP CodegenError.isOfDepth) st (run t st calls) := by
  induction calls generalizing st with
  | nil => exact .refl st
  | cons c calls ih =>
    obtain ⟨hheader, hexcess⟩ := c.next_leftBy (t := t) st
    obtain ⟨hheader', hexcess'⟩ := ih (c.next t st)
    refine ⟨hheader'.trans hheader, ?_⟩
    have htoll : (c.fault? t st).toList.countP CodegenError.isOfDepth =
        (c.fault? t st).elim 0 CodegenError.toll := by
      cases c.fault? t st with
      | none => rfl
      | some fault => exact List.countP_singleton
    rw [run, List.foldl_cons]
    rw [run] at hexcess'
    rw [hexcess', hexcess, faults, List.countP_append, htoll, Nat.add_assoc]

/-- A run of calls keeps the header, and it takes one level for each call that was refused since
its type is nested too deeply. What a call is refused for afterwards depends on nothing else. So a
run without such a refusal leaves the levels as they were, and every call is accepted or refused
behind it as before it. -/
theorem run_keeps_levels (t : SymbolTable) (st : DraftState) (calls : List Call) :
    (run t st calls).header = st.header ∧
      (run t st calls).excess =
        st.excess + (faults t st calls).countP CodegenError.isOfDepth ∧
      (∀ c : Call, c.fault? t (run t st calls) =
        c.fault? t { st with excess := (run t st calls).excess }) ∧
      ((∀ fault ∈ faults t st calls, fault.isOfDepth = false) →
        (run t st calls).excess = st.excess ∧
          ∀ c : Call, c.fault? t (run t st calls) = c.fault? t st) := by
  obtain ⟨hheader, hexcess⟩ := run_leftBy (t := t) st calls
  refine ⟨hheader, hexcess, fun c => c.fault?_congr hheader rfl, fun hfaults => ?_⟩
  have hnone : (faults t st calls).countP CodegenError.isOfDepth = 0 :=
    List.countP_eq_zero.mpr fun fault hf => by simp [hfaults fault hf]
  rw [hnone] at hexcess
  exact ⟨hexcess, fun c => c.fault?_congr hheader hexcess⟩

/-- A list of lists, so many levels of them, around a number. -/
def tower (levels : Nat) : FieldType := FieldType.list^[levels] .i32

/-- Refusals for other causes: an element that is void, and a name that stands for nothing. -/
def refusals : List Call :=
  [.write (.list .void) .this, .read (.set (.identifier "Gone")) "found", .read (tower 3) "found"]

theorem run_keeps_levels_refusals :
    (faults crates .empty refusals).length = 2 ∧ (run crates .empty refusals).excess = 0 ∧
      (Call.write (tower 63) .this).fault? crates (run crates .empty refusals) = none := by
  obtain ⟨-, -, -, hkept⟩ := run_keeps_levels crates .empty refusals
  obtain ⟨hexcess, hlater⟩ := hkept (by decide)
  exact ⟨by decide, hexcess, (hlater _).trans (by decide +kernel)⟩

/-- A tower that is one level too high takes a level for good, and one that was accepted before is
refused behind it. -/
theorem tower_refused_later :
    (Call.write (tower 63) .this).fault? crates .empty = none ∧
      faults crates .empty [.write (tower 64) .this] = [FieldType.tooDeep .i32] ∧
      (run crates .empty [.write (tower 64) .this]).excess = 1 ∧
      (Call.write (tower 63) .this).fault? crates (run crates .empty [.write (tower 64) .this]) =
        some (FieldType.tooDeep .i32) := by
  decide +kernel

end Draft

end Thrift
