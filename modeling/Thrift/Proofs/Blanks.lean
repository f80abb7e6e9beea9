-- Elements that are passed over. An element takes bytes unless its tag is that of void, so what a
-- container announces is paid for in bytes, other than voids: they may be announced for nothing.
import Thrift.Proofs.Grammar
import Thrift.Proofs.Rounds

namespace Thrift

namespace Logged

/-- Passes over one value of a type; every field and every element is a round. -/
def skipWithin (c : WireConfig) : Nat → WireType → Logged Unit
  | 0, _ => quiet (Reading.fail .skipDepth)
  | depth + 1, type =>
    match type with
    | .struct => fields (fun header _ => skipWithin c depth header.type) ()
    | .map => do
      let header ← quiet (Reading.mapHeader c)
      times (round (.passed [header.key, header.value]) do
        skipWithin c depth header.key
        skipWithin c depth header.value) header.size
    | .set => do
      let header ← quiet (Reading.setHeader c)
      times (round (.passed [header.element]) (skipWithin c depth header.element)) header.size
    | .list => do
      let header ← quiet (Reading.listHeader c)
      times (round (.passed [header.element]) (skipWithin c depth header.element)) header.size
    | other => quiet (Reading.skipWithin c (depth + 1) other)

def skip (c : WireConfig) (type : WireType) : Logged Unit := skipWithin c c.maxDepth type

theorem skipWithin_tells (c : WireConfig) (depth : Nat) (type : WireType) :
    Tells (skipWithin c depth type) (Reading.skipWithin c depth type) := by
  induction depth generalizing type with
  | zero => exact .quiet _
  | succ depth ih =>
    cases type with
    | stop => exact .quiet (Reading.skipWithin c (depth + 1) .stop)
    | void => exact .quiet (Reading.skipWithin c (depth + 1) .void)
    | struct => exact .fields (fun header _ => ih header.type) ()
    | map =>
      refine (Tells.quiet (Reading.mapHeader c)).bind fun header => ?_
      exact .times (((ih header.key).bind fun _ => ih header.value).round _) header.size
    | set =>
      refine (Tells.quiet (Reading.setHeader c)).bind fun header => ?_
      exact .times ((ih header.element).round _) header.size
    | list =>
      refine (Tells.quiet (Reading.listHeader c)).bind fun header => ?_
      exact .times ((ih header.element).round _) header.size
    | _ => exact Tells.quiet (Reading.skipWithin c (depth + 1) _)

theorem skip_tells (c : WireConfig) (type : WireType) : Tells (skip c type) (Reading.skip c type) :=
  skipWithin_tells c c.maxDepth type

/-- A value that is passed over pays for its elements, and takes a byte more unless it is a void. -/
theorem skipWithin_pays (c : WireConfig) (depth : Nat) (type : WireType) :
    Pays (if type = .void then 0 else 1) (skipWithin c depth type) := by
  induction depth generalizing type with
  | zero => exact .quiet (.throw _)
  | succ depth ih =>
    have helement : ∀ element, Pays 0
        (round (.passed [element]) (skipWithin c depth element)) := by
      intro element
      apply Pays.passed
      have := ih element
      simpa using this
    cases type with
    | stop => exact .quiet (.throw _)
    | void => exact .quiet (.pure _)
    | bool => exact .quiet (.map .bool _)
    | byte => exact .quiet (.map .byte _)
    | double => exact .quiet ((Reading.Costs.double.map _).mono (by decide))
    | i16 => exact .quiet ((Reading.Costs.i16.map _).mono (by decide))
    | i32 => exact .quiet ((Reading.Costs.i32.map _).mono (by decide))
    | i64 => exact .quiet ((Reading.Costs.i64.map _).mono (by decide))
    | string => exact .quiet (((Reading.Costs.binary c).map _).mono (by decide))
    | struct => exact .fields (fun header _ => (ih header.type).mono (Nat.zero_le _)) ()
    | map =>
      have hheader : Pays 1 (quiet (Reading.mapHeader c)) :=
        .quiet ((Reading.Costs.mapHeader c).mono (by decide))
      refine hheader.first fun header => .times (.passed ?_) header.size
      refine ((ih header.key).bind fun _ => ih header.value).mono ?_
      by_cases hk : header.key = .void <;> by_cases hv : header.value = .void <;> simp [hk, hv]
    | set =>
      have hheader : Pays 1 (quiet (Reading.setHeader c)) :=
        .quiet ((Reading.Costs.setHeader c).mono (by decide))
      exact hheader.first fun header => .times (helement header.element) header.size
    | list =>
      have hheader : Pays 1 (quiet (Reading.listHeader c)) :=
        .quiet ((Reading.Costs.listHeader c).mono (by decide))
      exact hheader.first fun header => .times (helement header.element) header.size

theorem skip_pays (c : WireConfig) (type : WireType) :
    Pays (if type = .void then 0 else 1) (skip c type) := skipWithin_pays c c.maxDepth type

end Logged

namespace Reading

variable {c : WireConfig} {type : WireType} {input rest : Bytes}

theorem skipWithin_costs (c : WireConfig) (depth : Nat) (type : WireType) :
    Costs (if type = .void then 0 else 1) (skipWithin c depth type) :=
  (Logged.skipWithin_pays c depth type).costs (Logged.skipWithin_tells c depth type)

/-! ## Announced elements -/

/-- The input begins with the header of a container, which announces so many elements or entries of
these tags; they stand at the beginning of what is behind it. -/
inductive Announces (c : WireConfig) (input : Bytes) : WireType → List WireType → Nat → Bytes → Prop
  | list {header : ElementsHeader} {behind : Bytes} (h : listHeader c input = .ok header behind) :
      Announces c input .list [header.element] header.size behind
  | set {header : ElementsHeader} {behind : Bytes} (h : setHeader c input = .ok header behind) :
      Announces c input .set [header.element] header.size behind
  | map {header : EntriesHeader} {behind : Bytes} (h : mapHeader c input = .ok header behind) :
      Announces c input .map [header.key, header.value] header.size behind

theorem times_element_costs {depth n : Nat} {element : WireType} {behind : Bytes}
    (hne : element ≠ .void) (h : times (skipWithin c depth element) n behind = .ok () rest) :
    n + rest.length ≤ behind.length := by
  have hcosts := (skipWithin_costs c depth element).times n
  rw [if_neg hne] at hcosts
  have hlen := hcosts behind () rest h
  omega

/-- Elements that are passed over take a byte each, unless they are voids. -/
theorem skip_announced {tags : List WireType} {n : Nat} {behind : Bytes}
    (ha : Announces c input type tags n behind) (htags : ∃ tag ∈ tags, tag ≠ .void)
    (h : skip c type input = .ok () rest) : n + rest.length ≤ behind.length := by
  obtain ⟨tag, htag, hne⟩ := htags
  rw [skip] at h
  rcases hd : c.maxDepth with _ | depth
  · rw [hd] at h
    exact absurd h fail_ne_ok
  · rw [hd] at h
    cases ha with
    | list hheader =>
      rw [skipWithin, Steps.bind_ok hheader] at h
      exact times_element_costs (List.mem_singleton.mp htag ▸ hne) h
    | set hheader =>
      rw [skipWithin, Steps.bind_ok hheader] at h
      exact times_element_costs (List.mem_singleton.mp htag ▸ hne) h
    | @map header _ hheader =>
      rw [skipWithin, Steps.bind_ok hheader] at h
      have hentry : Costs 1 (skipWithin c depth header.key >>= fun _ =>
          skipWithin c depth header.value) := by
        refine ((skipWithin_costs c depth header.key).bind fun _ =>
          skipWithin_costs c depth header.value).mono ?_
        simp only [List.mem_cons, List.not_mem_nil, or_false] at htag
        rcases htag with rfl | rfl
        · rw [if_neg hne]
          omega
        · rw [if_neg hne]
          omega
      have hlen := hentry.times header.size behind () rest h
      omega

end Reading

/-! ## Voids -/

namespace Logged

variable {c : WireConfig}

/-- So many voids are passed over for nothing, round by round. -/
theorem times_voids (c : WireConfig) (depth n : Nat) (t : Trace) :
    times (round (.passed [.void]) (skipWithin c (depth + 1) .void)) n t =
      .ok () ⟨t.unread, List.replicate n ⟨.passed [.void], t.unread, t.unread⟩ ++ t.rounds⟩ := by
  induction n generalizing t with
  | zero => rfl
  | succ n ih =>
    have hround : round (.passed [.void]) (skipWithin c (depth + 1) .void) t =
        .ok () ⟨t.unread, ⟨.passed [.void], t.unread, t.unread⟩ :: t.rounds⟩ := rfl
    rw [times, Steps.bind_ok hround, ih, List.replicate_succ', List.append_assoc]
    rfl

/-- A list of voids has a header and nothing else, however many of them it announces. -/
theorem skip_voids (hdepth : 2 ≤ c.maxDepth) {n : Nat}
    (hn : SizeWithin c.maxContainerSize n) (rest : Bytes) :
    skip c .list ⟨WireType.void.code :: sizeBytes n ++ rest, []⟩ =
      .ok () ⟨rest, List.replicate n ⟨.passed [.void], rest, rest⟩⟩ := by
  obtain ⟨depth, hd⟩ : ∃ depth, c.maxDepth = depth + 2 := ⟨c.maxDepth - 2, by omega⟩
  have hheader := (Reading.listHeader_spells c _ ⟨.void, n⟩ rest).mpr ⟨hn, rfl⟩
  have hquiet : quiet (Reading.listHeader c) ⟨WireType.void.code :: sizeBytes n ++ rest, []⟩ =
      .ok ⟨.void, n⟩ ⟨rest, []⟩ := quiet_ok hheader
  rw [skip, hd, skipWithin, Steps.bind_ok hquiet, times_voids, List.append_nil]

end Logged

open Reading (Announces)

/-- Passing over a value, where it succeeds. What a container announces takes as many bytes behind
its header, unless it announces nothing but voids. Over all levels of nesting, every round takes
bytes, and there are no more elements and entries than bytes, other than blank ones. -/
theorem Logged.skip_paid {c : WireConfig} {type : WireType} {input rest : Bytes}
    (h : Reading.skip c type input = .ok () rest) :
    (∀ tags n behind, Announces c input type tags n behind → (∃ tag ∈ tags, tag ≠ .void) →
        n + rest.length ≤ behind.length) ∧
      ∃ log, skip c type ⟨input, []⟩ = .ok () ⟨rest, log⟩ ∧ (∀ r ∈ log, r.Paid) ∧
        Round.elements log + rest.length ≤ input.length := by
  refine ⟨fun tags n behind ha htags => Reading.skip_announced ha htags h, ?_⟩
  have htells := (skip_tells c type ⟨input, []⟩).trans h
  obtain ⟨hpaid, hlen⟩ := (skip_pays c type).run input
  rcases hrun : skip c type ⟨input, []⟩ with ⟨_, t⟩ | ⟨e, t⟩
  · rw [hrun] at htells hpaid hlen
    cases htells
    exact ⟨t.rounds, rfl, hpaid, hlen _ _ rfl⟩
  · rw [hrun] at htells
    cases htells

/-- A list of two lists, of which one has an element. -/
theorem Logged.skip_paid_nested :
    Reading.skip {} .list [15, 0, 0, 0, 2, 3, 0, 0, 0, 1, 7, 3, 0, 0, 0, 0, 9] = .ok () [9] ∧
      ∃ log, skip {} .list ⟨[15, 0, 0, 0, 2, 3, 0, 0, 0, 1, 7, 3, 0, 0, 0, 0, 9], []⟩ =
          .ok () ⟨[9], log⟩ ∧ Round.elements log = 3 ∧ (∀ r ∈ log, r.Paid) ∧
            Round.elements log + 1 ≤ 17 := by
  have hskip : Reading.skip {} .list
      [15, 0, 0, 0, 2, 3, 0, 0, 0, 1, 7, 3, 0, 0, 0, 0, 9] = .ok () [9] := rfl
  obtain ⟨-, log, hrun, hpaid, hlen⟩ := skip_paid hskip
  cases hrun
  exact ⟨hskip, _, rfl, rfl, hpaid, hlen⟩

/-- A list that announces six voids is passed over. It takes nothing behind its header, so its six
rounds are more than its five bytes. -/
theorem Logged.skip_unpaid_voids :
    Announces {} [1, 0, 0, 0, 6] .list [.void] 6 [] ∧
      Reading.skip {} .list [1, 0, 0, 0, 6] = .ok () [] ∧ ¬ 6 ≤ ([] : Bytes).length ∧
        ∃ log, skip {} .list ⟨[1, 0, 0, 0, 6], []⟩ = .ok () ⟨[], log⟩ ∧
          (∀ r ∈ log, r.turn = .passed [.void]) ∧
            ¬ log.length ≤ ([1, 0, 0, 0, 6] : Bytes).length := by
  have hheader : Reading.listHeader {} [1, 0, 0, 0, 6] = .ok ⟨.void, 6⟩ [] := rfl
  have hbytes : WireType.void.code :: sizeBytes 6 ++ [] = [1, 0, 0, 0, 6] := by decide
  have hlog := skip_voids (c := {}) (by decide) (n := 6) ⟨by decide, by decide⟩ []
  rw [hbytes] at hlog
  refine ⟨.list hheader, rfl, by decide, _, hlog, fun r hr => ?_, by decide⟩
  rw [List.eq_of_mem_replicate hr]

end Thrift
