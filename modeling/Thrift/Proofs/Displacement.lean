-- Calls under numbers that are taken. There are so many numbers and then they start again. A call
-- that still waits when its number comes round loses its place to the new one. Before that, no
-- call is in the way of another.
import Thrift.Proofs.Correlation

namespace Thrift

theorem Int32.mod_eq_of_ofNat_eq {i j : Nat} (h : Int32.ofNat i = Int32.ofNat j) :
    i % idCount = j % idCount := by
  have hword : (Int32.ofNat i).toUInt32.toNat = (Int32.ofNat j).toUInt32.toNat := by rw [h]
  rwa [Int32.toUInt32_ofNat', Int32.toUInt32_ofNat', UInt32.toNat_ofNat',
    UInt32.toNat_ofNat'] at hword

namespace Client

variable {n : Nat} {c next : Client}

/-! ## Numbers of calls -/

/-- Each call that waits has one of the numbers that were given out, of which zero is none. -/
def Numbered (n : Nat) (c : Client) : Prop :=
  ∀ e ∈ c.pending, ∃ i, 0 < i ∧ i ≤ n ∧ e.1 = Int32.ofNat i

theorem Numbered.moves {a : Action} (h : Numbered n c) (hs : Sound n c) (hm : c.Moves a next) :
    Numbered (n + c.given next) next := by
  intro e he
  rcases hm.mem_pending he with he | ⟨t, ht, -, rfl⟩
  · obtain ⟨i, hpos, hle, hid⟩ := h e he
    exact ⟨i, hpos, by omega, hid⟩
  · obtain ⟨hid, -, hgiven, -⟩ := hm.ticket ht
    exact ⟨n + 1, by omega, by omega, hid.trans hs.next_id⟩

theorem Numbered.run (h : Numbered n c) (hs : Sound n c) (actions : List Action) :
    Numbered (n + c.givenOut actions) (c.run actions) := by
  induction actions generalizing n c with
  | nil => exact h
  | cons a later ih =>
    have hmoves := c.step_moves a
    have hrest := ih (h.moves hs hmoves) (hs.moves hmoves)
    rwa [Nat.add_assoc] at hrest

/-- The next number is taken only if all the others were given out since. -/
theorem Numbered.count_le (h : Numbered n c) (hs : Sound n c) {p : PendingCall}
    (hp : c.pending.lookup (c.sequenceId + 1) = some p) : idCount ≤ n := by
  obtain ⟨i, hpos, hle, hid⟩ := h _ (mem_of_lookup hp)
  rw [hs.next_id] at hid
  have hmod := Int32.mod_eq_of_ofNat_eq hid
  rw [idCount] at hmod ⊢
  omega

/-! ## New calls -/

/-- A new call waits, and all that waited before still do. -/
structure Joins (c next : Client) (id : Int32) (p : PendingCall) : Prop where
  pending_eq : next.pending = (id, p) :: c.pending
  waiting : ∀ e ∈ next.pending, next.calls[e.2.call]? = some .waiting

/-- A new call waits under the number of another one, which is cancelled. All others still
wait. -/
structure Displaces (c next : Client) (id : Int32) (p displaced : PendingCall) : Prop where
  pending_eq : next.pending = (id, p) :: c.pending.filter (·.1 != id)
  length_eq : next.pending.length = c.pending.length
  waiting : ∀ e ∈ next.pending, next.calls[e.2.call]? = some .waiting
  cancelled : next.calls[displaced.call]? = some (.settled (.error .cancelled))

/-- An accepted two-way call waits under the next number, at the next place. -/
theorem next_of_call {title : String} {args : StructValue} {m : Method} {id : Int32} {call : Nat}
    (hm : c.method title = .ok m) (htwo : m.oneway = false)
    (hcall : c.call title args = (.ok (id, call), next)) :
    id = c.sequenceId + 1 ∧ call = c.calls.length ∧ ∃ link, next =
      Client.await { c.advance 1 with link, calls := c.calls ++ [.waiting] } id ⟨m, call⟩ := by
  have hmoves := c.call_moves title args
  have hticket : c.ticket? (.call title args) = some ⟨id, m, call⟩ := by
    rw [ticket?, hm, hcall]
  rw [hcall] at hmoves
  generalize hnext : (Except.ok (id, call), next).2 = last at hmoves
  cases hmoves with
  | idle k link hk hnone hsent =>
    rw [hnone] at hticket
    cases hticket
  | oneway link honeway hsome hsent =>
    cases hsome.symm.trans hticket
    rw [honeway] at htwo
    cases htwo
  | called link _ hsome hsent =>
    cases hsome.symm.trans hticket
    exact ⟨rfl, rfl, link, hnext⟩

namespace Sound

/-- When one call waits under its number, one less waits under other numbers. -/
theorem length_filter (h : Sound n c) {id : Int32} {p : PendingCall}
    (hp : c.pending.lookup id = some p) :
    (c.pending.filter (·.1 != id)).length + 1 = c.pending.length := by
  obtain ⟨before, after, hsplit⟩ := List.append_of_mem (mem_of_lookup hp)
  have hperm : c.pending.Perm ((id, p) :: (before ++ after)) := by
    rw [hsplit]
    exact List.perm_middle
  rw [(h.filter_perm hperm).length_eq, hperm.length_eq, List.length_cons]

theorem joins (h : Sound n c) {id : Int32} {m : Method} {link : Link}
    (hid : id = c.sequenceId + 1) (hfree : c.pending.lookup id = none) :
    Joins c (Client.await { c.advance 1 with link, calls := c.calls ++ [.waiting] } id
      ⟨m, c.calls.length⟩) id ⟨m, c.calls.length⟩ := by
  subst hid
  have hsound := h.called link m
  refine ⟨?_, hsound.waiting⟩
  have hfree' : ({ c.advance 1 with link, calls := c.calls ++ [.waiting] } : Client).pending.lookup
      (c.sequenceId + 1) = none := hfree
  rw [await_of_lookup hfree']
  rfl

theorem displaces (h : Sound n c) {id : Int32} {m : Method} {link : Link} {p : PendingCall}
    (hid : id = c.sequenceId + 1) (hp : c.pending.lookup id = some p) :
    Displaces c (Client.await { c.advance 1 with link, calls := c.calls ++ [.waiting] } id
      ⟨m, c.calls.length⟩) id ⟨m, c.calls.length⟩ p := by
  subst hid
  have hsound := h.called link m
  have hwaits : (c.calls ++ [.waiting])[p.call]? = some .waiting := by
    have hmem := mem_of_lookup hp
    rw [List.getElem?_append_left (h.call_lt hmem)]
    exact h.waiting _ hmem
  have hawait : (Client.await { c.advance 1 with link, calls := c.calls ++ [.waiting] }
      (c.sequenceId + 1) ⟨m, c.calls.length⟩) =
        { (Client.settleCall { c.advance 1 with link, calls := c.calls ++ [.waiting] } p.call
            (.error .cancelled)) with
          pending := (c.sequenceId + 1, ⟨m, c.calls.length⟩) ::
            c.pending.filter (·.1 != c.sequenceId + 1) } := by
    have hp' : ({ c.advance 1 with link, calls := c.calls ++ [.waiting] } : Client).pending.lookup
        (c.sequenceId + 1) = some p := hp
    unfold Client.await
    rw [hp']
    rfl
  refine ⟨?_, ?_, hsound.waiting, ?_⟩
  · rw [hawait]
  · rw [hawait]
    exact h.length_filter hp
  · rw [hawait]
    exact settleCall_waiting hwaits _

end Sound

/-- A two-way call that is accepted after any run waits under a number of its own, unless so many
numbers were given out that they start again and the one at hand is still waited for. -/
theorem pending_of_call {d : Compiled} {name : String} {config : WireConfig} {c : Client}
    (hc : Client.ofService d name config = .ok c) (actions : List Action) {title : String}
    {args : StructValue} {m : Method} {id : Int32} {call : Nat} {next : Client}
    (hm : (c.run actions).method title = .ok m) (htwo : m.oneway = false)
    (hcall : (c.run actions).call title args = (.ok (id, call), next)) :
    (c.run actions).pending.lookup id = none ∧ Joins (c.run actions) next id ⟨m, call⟩ ∨
      ∃ displaced, (c.run actions).pending.lookup id = some displaced ∧
        idCount ≤ c.givenOut actions ∧
        Displaces (c.run actions) next id ⟨m, call⟩ displaced := by
  have hfresh := Fresh.ofService hc
  have hnone : Numbered 0 c := by
    intro e he
    rw [hfresh.pending_eq] at he
    cases he
  have hsound := hfresh.sound.run actions
  have hnumbered := hnone.run hfresh.sound actions
  rw [Nat.zero_add] at hsound hnumbered
  obtain ⟨hid, rfl, link, rfl⟩ := next_of_call hm htwo hcall
  rcases hlookup : (c.run actions).pending.lookup id with _ | displaced
  · exact .inl ⟨rfl, hsound.joins hid hlookup⟩
  · refine .inr ⟨displaced, rfl, ?_, hsound.displaces hid hlookup⟩
    rw [hid] at hlookup
    exact hnumbered.count_le hsound hlookup

theorem pending_of_call_library :
    Client.ofService Document.libraryCodecs "Library" {} = .ok ofLibrary ∧
      Joins (ofLibrary.run [.call "close" (.empty "")])
        ((ofLibrary.run [.call "close" (.empty "")]).call "close" (.empty "")).2 2
        ⟨Document.closeMethod, 1⟩ := by
  have hc : Client.ofService Document.libraryCodecs "Library" {} = .ok ofLibrary := rfl
  have hcall : (ofLibrary.run [.call "close" (.empty "")]).call "close" (.empty "") =
      (.ok (2, 1), ((ofLibrary.run [.call "close" (.empty "")]).call "close" (.empty "")).2) :=
    Prod.ext rfl rfl
  rcases pending_of_call hc [.call "close" (.empty "")] (m := Document.closeMethod) rfl rfl hcall
    with ⟨-, hjoins⟩ | ⟨displaced, hlookup, -⟩
  · exact ⟨hc, hjoins⟩
  · cases hlookup

/-! ## All numbers -/

theorem advance_advance (c : Client) (n : Nat) : (c.advance 1).advance n = c.advance (n + 1) := by
  have hid : c.sequenceId + Int32.ofNat 1 + Int32.ofNat n =
      c.sequenceId + Int32.ofNat (n + 1) := by
    rw [Int32.add_assoc, ← Int32.ofNat_add, Nat.add_comm 1 n]
  unfold advance
  rw [hid]

theorem run_newSequenceIds (c : Client) (n : Nat) :
    c.run (List.replicate n .newSequenceId) = c.advance n := by
  induction n generalizing c with
  | zero => exact (advance_zero c).symm
  | succ n ih =>
    rw [List.replicate_succ, run_cons, ih]
    exact advance_advance c n

/-- A call, and then all the numbers that are left. -/
def allNumbers : List Action :=
  .call "close" (.empty "") :: List.replicate (idCount - 1) .newSequenceId

/-- The number of a call that waits is given out again, and the call is cancelled. -/
theorem displaced_library :
    Client.ofService Document.libraryCodecs "Library" {} = .ok ofLibrary ∧
      (ofLibrary.run allNumbers).pending = [(1, ⟨Document.closeMethod, 0⟩)] ∧
      ∃ next, (ofLibrary.run allNumbers).call "close" (.empty "") = (.ok (1, 1), next) ∧
        next.pending = [(1, ⟨Document.closeMethod, 1⟩)] ∧
        next.calls = [.settled (.error .cancelled), .waiting] := by
  have hrun : ofLibrary.run allNumbers =
      (ofLibrary.step (.call "close" (.empty ""))).advance (idCount - 1) := by
    rw [allNumbers, run_cons, run_newSequenceIds]
  rw [hrun]
  exact ⟨rfl, rfl, _, Prod.ext rfl rfl, rfl, rfl⟩

end Client

end Thrift
