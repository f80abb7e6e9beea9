-- Which types a script is written with. Only a statement that goes over the elements of a
-- container changes the types of locals, so code without such a statement is written throughout
-- with the types that it starts with.
import Thrift.Proofs.Blocks
import Thrift.Script.Struct

namespace Thrift.Script

open Stmt (walkAll)

/-- The statement goes over the elements of a container, so it tells types by itself. -/
def IsForEach : Stmt → Prop
  | .forEach _ _ _ _ _ => True
  | _ => False

/-- Statements are written with these types of locals: the types stay the same, and the lines of
each statement are among the lines. -/
structure WrittenWith (s : Scene) (l : Locals) (stmts : List Stmt)
    (written : List Piece × Locals) : Prop where
  locals : written.2 = l
  lines : ∀ st ∈ stmts, (stmtLines s st l).1 ⊆ written.1

theorem subset_chained {blocks : List (String × List Piece)} {head : String} {body : List Piece}
    (h : (head, body) ∈ blocks) (foot : String) : body ⊆ chained blocks foot := by
  intro piece hpiece
  refine List.mem_append_left _ (List.mem_flatMap.mpr ⟨_, h, ?_⟩)
  exact List.mem_append_left _ (List.mem_append_right _ hpiece)

theorem subset_braced (head : String) (body : List Piece) : body ⊆ braced head body :=
  subset_chained (List.mem_cons_self ..) _

namespace WrittenWith

variable {s : Scene} {l : Locals} {stmt : Stmt} {stmts more : List Stmt}
  {written written' : List Piece × Locals}

/-- A statement stands before those below it. -/
theorem cons (h : WrittenWith s l stmts written) (hlocals : (stmtLines s stmt l).2 = written.2)
    (hlines : written.1 ⊆ (stmtLines s stmt l).1) :
    WrittenWith s l (stmt :: stmts) (stmtLines s stmt l) where
  locals := hlocals.trans h.locals
  lines := List.forall_mem_cons.mpr ⟨fun _ hp => hp, fun st hst _ hp => hlines (h.lines st hst hp)⟩

theorem append (h : WrittenWith s l stmts written) (h' : WrittenWith s l more written') :
    WrittenWith s l (stmts ++ more) (written.1 ++ written'.1, written'.2) where
  locals := h'.locals
  lines := List.forall_mem_append.mpr
    ⟨fun st hst _ hp => List.mem_append_left _ (h.lines st hst hp),
      fun st hst _ hp => List.mem_append_right _ (h'.lines st hst hp)⟩

end WrittenWith

mutual

theorem stmtLines_written (s : Scene) (stmt : Stmt) (l : Locals)
    (h : ∀ st ∈ stmt.walk, ¬ IsForEach st) : WrittenWith s l stmt.walk (stmtLines s stmt l) := by
  cases stmt with
  | loop body =>
    rw [Stmt.walk, List.forall_mem_cons] at h
    exact (blockLines_written s body l h.2).cons rfl (subset_braced _ _)
  | «switch» header cases default =>
    rw [Stmt.walk, List.forall_mem_cons, List.forall_mem_append] at h
    obtain ⟨-, hcases, hdefault⟩ := h
    have hwritten := casesLines_written s cases l hcases
    have hrest : WrittenWith s l (walkAll default)
        (blockLines s default (casesLines s cases l).2) := by
      rw [hwritten.locals]
      exact blockLines_written s default l hdefault
    refine (hwritten.append hrest).cons rfl fun piece hp => subset_braced _ _ ?_
    exact (List.mem_append.mp hp).elim (List.mem_append_left _)
      fun hp => List.mem_append_right _ (subset_braced _ _ hp)
  | ifWireType header expected matching otherwise =>
    rw [Stmt.walk, List.forall_mem_cons, List.forall_mem_append] at h
    obtain ⟨-, hmatching, hotherwise⟩ := h
    have hwritten := blockLines_written s matching l hmatching
    have hrest : WrittenWith s l (walkAll otherwise)
        (blockLines s otherwise (blockLines s matching l).2) := by
      rw [hwritten.locals]
      exact blockLines_written s otherwise l hotherwise
    refine (hwritten.append hrest).cons rfl fun piece hp => ?_
    simp only [stmtLines]
    split
    · rename_i hempty
      cases List.isEmpty_iff.mp hempty
      exact subset_braced _ _ ((List.mem_append.mp hp).resolve_right List.not_mem_nil)
    · rcases List.mem_append.mp hp with hp | hp
      · exact subset_chained (List.mem_cons_self ..) _ hp
      · exact subset_chained (List.mem_cons_of_mem _ (List.mem_cons_self ..)) _ hp
  | repeated metadata counter body =>
    rw [Stmt.walk, List.forall_mem_cons] at h
    exact (blockLines_written s body l h.2).cons rfl (subset_braced _ _)
  | forEach kind source key value body =>
    exact absurd trivial (h _ (List.mem_cons_self ..))
  | ifPresent source body =>
    rw [Stmt.walk, List.forall_mem_cons] at h
    exact (blockLines_written s body l h.2).cons rfl (subset_braced _ _)
  | _ => exact ⟨rfl, fun st hst => List.mem_singleton.mp hst ▸ fun _ hp => hp⟩

theorem blockLines_written (s : Scene) (code : List Stmt) (l : Locals)
    (h : ∀ st ∈ walkAll code, ¬ IsForEach st) :
    WrittenWith s l (walkAll code) (blockLines s code l) := by
  cases code with
  | nil => exact ⟨rfl, fun _ hst => absurd hst List.not_mem_nil⟩
  | cons stmt stmts =>
    rw [walkAll, List.forall_mem_append] at h
    have hwritten := stmtLines_written s stmt l h.1
    have hrest : WrittenWith s l (walkAll stmts) (blockLines s stmts (stmtLines s stmt l).2) := by
      rw [hwritten.locals]
      exact blockLines_written s stmts l h.2
    exact hwritten.append hrest

theorem casesLines_written (s : Scene) (cases : List (Int16 × List Stmt)) (l : Locals)
    (h : ∀ st ∈ Stmt.walkCases cases, ¬ IsForEach st) :
    WrittenWith s l (Stmt.walkCases cases) (casesLines s cases l) := by
  cases cases with
  | nil => exact ⟨rfl, fun _ hst => absurd hst List.not_mem_nil⟩
  | cons case cases =>
    obtain ⟨id, body⟩ := case
    rw [Stmt.walkCases, List.forall_mem_append] at h
    have hwritten := blockLines_written s body l h.1
    have hrest : WrittenWith s l (Stmt.walkCases cases)
        (casesLines s cases (blockLines s body l).2) := by
      rw [hwritten.locals]
      exact casesLines_written s cases l h.2
    refine ⟨hrest.locals, fun st hst piece hp => ?_⟩
    rw [casesLines_cons]
    rcases List.mem_append.mp ((hwritten.append hrest).lines st hst hp) with hp | hp
    · refine List.mem_append_left _ (List.mem_cons_of_mem _ (List.mem_append_left _ ?_))
      exact List.mem_append_right _ (List.mem_append_left _ hp)
    · exact List.mem_append_right _ hp

end

end Thrift.Script
