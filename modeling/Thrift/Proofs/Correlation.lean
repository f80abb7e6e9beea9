-- Runs of a client. Calls go out, each with a number of its own, and messages come in, in any
-- order and with anything in them. A call is settled by the first message after it that carries
-- its number, and by nothing else.
import Mathlib.Data.List.Perm.Basic
import Thrift.Proofs.Methods
import Thrift.Proofs.Pending

namespace Thrift

namespace Client

variable {n : Nat} {c : Client} {actions : List Action}

/-! ## Runs -/

theorem run_cons (c : Client) (a : Action) (later : List Action) :
    c.run (a :: later) = (c.step a).run later := rfl

/-- A call that is settled stays as it is, whatever comes after. -/
theorem settled_run {k : Nat} {outcome : CallOutcome}
    (h : c.calls[k]? = some (.settled outcome)) (actions : List Action) :
    (c.run actions).calls[k]? = some (.settled outcome) := by
  induction actions generalizing c with
  | nil => exact h
  | cons a later ih => exact ih ((c.step_moves a).settled_calls h)

theorem firstAnswer_cons (d : Compiled) (m : Method) (id : Int32) (a : Action)
    (later : List Action) :
    firstAnswer d m id (a :: later) = (a.answer? d m id).or (firstAnswer d m id later) := by
  rw [firstAnswer, List.findSome?_cons]
  rcases a.answer? d m id with _ | outcome <;> rfl

theorem mem_history_cons {a : Action} {t : Ticket} {rest : List Action} :
    (t, rest) ∈ c.history (a :: actions) ↔
      c.ticket? a = some t ∧ rest = actions ∨ (t, rest) ∈ (c.step a).history actions := by
  rw [history, List.mem_append, List.mem_map]
  simp only [Option.mem_toList, Prod.mk.injEq]
  refine or_congr_left ⟨?_, ?_⟩
  · rintro ⟨t', ht, rfl, rfl⟩
    exact ⟨ht, rfl⟩
  · rintro ⟨ht, rfl⟩
    exact ⟨t, ht, rfl, rfl⟩

/-- What was done after a call is the end of what was done. -/
theorem suffix_of_mem_history {t : Ticket} {later : List Action}
    (h : (t, later) ∈ c.history actions) : later <:+ actions := by
  induction actions generalizing c with
  | nil => cases h
  | cons a rest ih =>
    rcases mem_history_cons.mp h with ⟨-, rfl⟩ | h
    · exact List.suffix_cons a later
    · exact (ih h).trans (List.suffix_cons a rest)

namespace Sound

theorem step_lt {a : Action} {later : List Action} (hn : n + c.givenOut (a :: later) < idCount) :
    n + c.given (c.step a) < idCount := by
  rw [givenOut] at hn
  omega

theorem later_lt {a : Action} {later : List Action} (hn : n + c.givenOut (a :: later) < idCount) :
    n + c.given (c.step a) + (c.step a).givenOut later < idCount := by
  rwa [givenOut, ← Nat.add_assoc] at hn

/-- A run keeps the table sound. -/
theorem run (h : Sound n c) (actions : List Action) :
    Sound (n + c.givenOut actions) (c.run actions) := by
  induction actions generalizing n c with
  | nil => exact h
  | cons a later ih =>
    have hrest := ih (h.moves (c.step_moves a))
    rwa [Nat.add_assoc] at hrest

/-- A call that waits is settled with the first answer to it. -/
theorem answered_run (h : Sound n c) (hn : n + c.givenOut actions < idCount)
    {e : Int32 × PendingCall} (he : e ∈ c.pending) : (c.run actions).calls[e.2.call]? =
      some (answered (firstAnswer c.document e.2.method e.1 actions)) := by
  induction actions generalizing n c with
  | nil => exact h.waiting e he
  | cons a later ih =>
    have hmoves := c.step_moves a
    have hcalls := h.answered_calls hmoves (step_lt hn) he
    rw [firstAnswer_cons]
    rcases hanswer : a.answer? c.document e.2.method e.1 with _ | outcome
    · have hwaits := (h.mem_pending_iff hmoves (step_lt hn)).mpr (.inl ⟨he, hanswer⟩)
      have hrest := ih (h.moves hmoves) (later_lt hn) hwaits
      rwa [hmoves.document_eq] at hrest
    · rw [hanswer] at hcalls
      exact settled_run hcalls later

/-- A new call waits, unless it is one-way. -/
theorem mem_pending_of_ticket (h : Sound n c) {a : Action} (hn : n + c.given (c.step a) < idCount)
    {t : Ticket} (ht : c.ticket? a = some t) (htwo : t.method.oneway = false) :
    (t.id, ⟨t.method, t.call⟩) ∈ (c.step a).pending :=
  (h.mem_pending_iff (c.step_moves a) hn).mpr (.inr ⟨t, ht, htwo, rfl⟩)

/-- Every call is found as the messages after it leave it. -/
theorem history_calls (h : Sound n c) (hn : n + c.givenOut actions < idCount) {t : Ticket}
    {later : List Action} (ht : (t, later) ∈ c.history actions) :
    (c.run actions).calls[t.call]? = some (t.stateAfter c.document later) := by
  induction actions generalizing n c with
  | nil => cases ht
  | cons a rest ih =>
    have hmoves := c.step_moves a
    have hstep := h.moves hmoves
    rcases mem_history_cons.mp ht with ⟨hticket, rfl⟩ | ht
    · rw [Ticket.stateAfter]
      rcases htwo : t.method.oneway with _ | _
      · have hwaits := h.mem_pending_of_ticket (step_lt hn) hticket htwo
        have hrest := hstep.answered_run (later_lt hn) hwaits
        rwa [hmoves.document_eq] at hrest
      · exact settled_run ((hmoves.ticket hticket).2.2.2 htwo) later
    · have hrest := ih hstep (later_lt hn) ht
      rwa [hmoves.document_eq] at hrest

/-- The table holds what waited before and the new two-way calls, each without an answer. -/
theorem mem_pending_run_iff (h : Sound n c) (hn : n + c.givenOut actions < idCount)
    {e : Int32 × PendingCall} : e ∈ (c.run actions).pending ↔
      (e ∈ c.pending ∧ firstAnswer c.document e.2.method e.1 actions = none) ∨
        ∃ t later, (t, later) ∈ c.history actions ∧ t.method.oneway = false ∧
          firstAnswer c.document t.method t.id later = none ∧ e = (t.id, ⟨t.method, t.call⟩) := by
  induction actions generalizing n c with
  | nil => simp [Client.run, history, firstAnswer]
  | cons a rest ih =>
    have hmoves := c.step_moves a
    rw [run_cons, ih (h.moves hmoves) (later_lt hn), hmoves.document_eq,
      h.mem_pending_iff hmoves (step_lt hn), firstAnswer_cons, Option.or_eq_none_iff]
    constructor
    · rintro (⟨⟨he, ha⟩ | ⟨t, ht, htwo, rfl⟩, hrest⟩ | ⟨t, later, ht, hlater⟩)
      · exact .inl ⟨he, ha, hrest⟩
      · exact .inr ⟨t, rest, mem_history_cons.mpr (.inl ⟨ht, rfl⟩), htwo, hrest, rfl⟩
      · exact .inr ⟨t, later, mem_history_cons.mpr (.inr ht), hlater⟩
    · rintro (⟨he, ha, hrest⟩ | ⟨t, later, ht, htwo, hlater, rfl⟩)
      · exact .inl ⟨.inl ⟨he, ha⟩, hrest⟩
      · rcases mem_history_cons.mp ht with ⟨hticket, rfl⟩ | ht
        · exact .inl ⟨.inr ⟨t, hticket, htwo, rfl⟩, hlater⟩
        · exact .inr ⟨t, later, ht, htwo, hlater, rfl⟩

/-- The numbers of calls are those that are given out in the run. -/
theorem history_issued (h : Sound n c) (hn : n + c.givenOut actions < idCount) {t : Ticket}
    {later : List Action} (ht : (t, later) ∈ c.history actions) :
    ∃ i, n < i ∧ i ≤ n + c.givenOut actions ∧ t.id = Int32.ofNat i := by
  induction actions generalizing n c with
  | nil => cases ht
  | cons a rest ih =>
    have hmoves := c.step_moves a
    rw [givenOut]
    rcases mem_history_cons.mp ht with ⟨hticket, rfl⟩ | ht
    · obtain ⟨hid, -, hgiven, -⟩ := hmoves.ticket hticket
      exact ⟨n + 1, Nat.lt_succ_self n, by omega, hid.trans h.next_id⟩
    · obtain ⟨i, hlow, hhigh, hid⟩ := ih (h.moves hmoves) (later_lt hn) ht
      exact ⟨i, by omega, by omega, hid⟩

/-- No number is given to two calls. -/
theorem history_ids_nodup (h : Sound n c) (hn : n + c.givenOut actions < idCount) :
    ((c.history actions).map (·.1.id)).Nodup := by
  induction actions generalizing n c with
  | nil => exact List.nodup_nil
  | cons a rest ih =>
    have hmoves := c.step_moves a
    have hstep := h.moves hmoves
    have hrest := ih hstep (later_lt hn)
    rw [history]
    rcases hticket : c.ticket? a with _ | t
    · exact hrest
    · refine List.nodup_cons.mpr ⟨fun hmem => ?_, hrest⟩
      obtain ⟨⟨t', later⟩, ht', heq⟩ := List.mem_map.mp hmem
      obtain ⟨i, hlow, hhigh, hid⟩ := hstep.history_issued (later_lt hn) ht'
      obtain ⟨hnext, -, hgiven, -⟩ := hmoves.ticket hticket
      have hsame : Int32.ofNat i = Int32.ofNat (n + 1) := by
        rw [← hid, ← h.next_id, ← hnext]
        exact heq
      have hlast := later_lt hn
      have := Int32.ofNat_injective (by omega) (by omega) hsame
      omega

end Sound

/-- The calls of a run have the places behind those that were there, in order. -/
theorem history_places (c : Client) (actions : List Action) :
    (c.run actions).calls.length = c.calls.length + (c.history actions).length ∧
      (c.history actions).map (·.1.call) =
        List.range' c.calls.length (c.history actions).length := by
  induction actions generalizing c with
  | nil => exact ⟨rfl, rfl⟩
  | cons a rest ih =>
    have hmoves := c.step_moves a
    obtain ⟨hlength, hplaces⟩ := ih (c.step a)
    have hadded := hmoves.calls_length
    rw [run_cons, history, List.length_append, List.length_map, hlength, hadded, Nat.add_assoc]
    refine ⟨rfl, ?_⟩
    rw [List.map_append, hplaces, hadded]
    rcases hticket : c.ticket? a with _ | t
    · simp
    · obtain ⟨-, hcall, -, -⟩ := hmoves.ticket hticket
      simp [hcall, Nat.add_comm 1, List.range'_succ]

/-! ## Other orders -/

theorem Action.isMessage_of_carried? {a : Action} {id : Int32} (h : a.carried? = some id) :
    a.isMessage = true := by
  cases a with
  | receive config input => rfl
  | _ => cases h

/-- Two clients from which the next call goes out in the same way. -/
structure SameSender (c c' : Client) : Prop where
  document_eq : c.document = c'.document
  service_eq : c.service = c'.service
  config_eq : c.config = c'.config
  sequenceId_eq : c.sequenceId = c'.sequenceId
  places_eq : c.calls.length = c'.calls.length

namespace SameSender

variable {c' : Client}

theorem refl (c : Client) : SameSender c c := ⟨rfl, rfl, rfl, rfl, rfl⟩

theorem trans {c'' : Client} (h : SameSender c c') (h' : SameSender c' c'') : SameSender c c'' :=
  ⟨h.1.trans h'.1, h.2.trans h'.2, h.3.trans h'.3, h.4.trans h'.4, h.5.trans h'.5⟩

theorem method_eq (h : SameSender c c') (name : String) : c.method name = c'.method name := by
  rw [Client.method, Client.method, h.service_eq]

/-- A message is refused, fails or goes out from both alike. -/
theorem sendTo (h : SameSender c c') (m : Method) (args : StructValue) :
    (c.sendTo m args).1 = (c'.sendTo m args).1 ∧
      SameSender (c.sendTo m args).2 (c'.sendTo m args).2 := by
  have hmessage : (c.advance 1).message m args = (c'.advance 1).message m args := by
    simp only [Client.message, Client.advance, h.document_eq, h.config_eq, h.sequenceId_eq]
  have hid : c.sequenceId + Int32.ofNat 1 = c'.sequenceId + Int32.ofNat 1 := by
    rw [h.sequenceId_eq]
  unfold Client.sendTo
  rw [h.document_eq, h.config_eq]
  rcases Machine.validateAs c'.document c'.config.maxDepth m.argsStruct args with fault | _
  · exact ⟨rfl, h⟩
  · dsimp only [Link.write]
    rw [hmessage]
    rcases ((c'.advance 1).message m args).outcome with fault | _
    · exact ⟨rfl, h.1, h.2, h.3, hid, h.5⟩
    · exact ⟨congrArg Except.ok hid, h.1, h.2, h.3, hid, h.5⟩

theorem symm (h : SameSender c c') : SameSender c' c :=
  ⟨h.1.symm, h.2.symm, h.3.symm, h.4.symm, h.5.symm⟩

theorem addCall (h : SameSender c c') (state state' : CallState) :
    SameSender (c.addCall state).2 (c'.addCall state').2 := by
  refine ⟨h.1, h.2, h.3, h.4, ?_⟩
  exact (List.length_append.trans (congrArg (· + 1) h.5)).trans List.length_append.symm

theorem await (c : Client) (id : Int32) (p : PendingCall) : SameSender c (c.await id p) := by
  unfold Client.await
  split
  · exact ⟨rfl, rfl, rfl, rfl, (settleCall_length c _ _).symm⟩
  · exact ⟨rfl, rfl, rfl, rfl, rfl⟩

/-- A call is refused, fails or is accepted by both alike, with the same number and place. -/
theorem call (h : SameSender c c') (name : String) (args : StructValue) :
    (c.call name args).1 = (c'.call name args).1 ∧
      SameSender (c.call name args).2 (c'.call name args).2 := by
  unfold Client.call
  rw [h.method_eq]
  rcases c'.method name with fault | m
  · exact ⟨rfl, h⟩
  · dsimp only
    obtain ⟨hresult, hsame⟩ := h.sendTo m args
    generalize c.sendTo m args = sent, c'.sendTo m args = sent' at hresult hsame
    obtain ⟨fault | id, next⟩ := sent <;> obtain ⟨fault' | id', next'⟩ := sent' <;>
      cases hresult
    · exact ⟨rfl, hsame⟩
    · have hplace : next.calls.length = next'.calls.length := hsame.places_eq
      dsimp only
      split
      · exact ⟨congrArg (fun k => Except.ok (id, k)) hplace, hsame.addCall _ _⟩
      · refine ⟨congrArg (fun k => Except.ok (id, k)) hplace, ?_⟩
        exact ((await _ _ _).symm.trans (hsame.addCall .waiting .waiting)).trans (await _ _ _)

theorem send (h : SameSender c c') (name : String) (args : StructValue) :
    SameSender (c.send name args).2 (c'.send name args).2 := by
  unfold Client.send
  rw [h.method_eq]
  rcases c'.method name with fault | m
  · exact h
  · exact (h.sendTo m args).2

/-- Messages change nothing about what goes out. -/
theorem step_message (c : Client) {a : Action} (ha : a.isMessage = true) :
    SameSender c (c.step a) := by
  have hmoves := c.step_moves a
  generalize c.step a = next at hmoves
  cases hmoves with
  | dropped h => exact refl c
  | settled hread hp => exact ⟨rfl, rfl, rfl, rfl, (settleCall_length _ _ _).symm⟩
  | _ =>
    rename_i hsent
    rw [hsent] at ha
    cases ha

theorem step (h : SameSender c c') {a : Action} (ha : a.isMessage = false) :
    SameSender (c.step a) (c'.step a) := by
  cases a with
  | call name args => exact (h.call name args).2
  | send name args => exact h.send name args
  | newSequenceId =>
    have hid : c.sequenceId + Int32.ofNat 1 = c'.sequenceId + Int32.ofNat 1 := by
      rw [h.sequenceId_eq]
    exact ⟨h.1, h.2, h.3, hid, h.5⟩
  | receive config input => cases ha

theorem ticket?_eq (h : SameSender c c') (a : Action) : c.ticket? a = c'.ticket? a := by
  cases a with
  | call name args => rw [ticket?, ticket?, h.method_eq, (h.call name args).1]
  | _ => rfl

/-- The calls of a run are those that are accepted when no message comes in. -/
theorem tickets_eq (h : SameSender c c') (actions : List Action) :
    (c.history actions).map (·.1) = (c'.history (actions.filter (!·.isMessage))).map (·.1) := by
  induction actions generalizing c c' with
  | nil => rfl
  | cons a rest ih =>
    rcases ha : a.isMessage with _ | _
    · rw [List.filter_cons_of_pos (by rw [ha]; rfl), history, history, List.map_append,
        List.map_append, ih (h.step ha), h.ticket?_eq a]
      simp only [List.map_map, Function.comp_def]
    · have hticket : c.ticket? a = none := by
        cases a with
        | receive config input => rfl
        | _ => cases ha
      rw [List.filter_cons_of_neg (by rw [ha]; exact Bool.false_ne_true), history, hticket]
      exact ih ((step_message c ha).symm.trans h)

end SameSender

/-- Two runs with the same calls and the same messages. The messages come in another order, no
two carry the same number, and none comes before the call that it answers. -/
structure Reordered (c : Client) (actions actions' : List Action) : Prop where
  sent_eq : actions.filter (!·.isMessage) = actions'.filter (!·.isMessage)
  messages_perm : (actions.filter (·.isMessage)).Perm (actions'.filter (·.isMessage))
  carried_nodup : (actions.filterMap Action.carried?).Nodup
  after_call : ∀ t later, (t, later) ∈ c.history actions →
    ∀ a ∈ actions, a.carried? = some t.id → a ∈ later
  after_call' : ∀ t later, (t, later) ∈ c.history actions' →
    ∀ a ∈ actions', a.carried? = some t.id → a ∈ later

theorem filterMap_carried? (actions : List Action) :
    (actions.filter (·.isMessage)).filterMap Action.carried? =
      actions.filterMap Action.carried? := by
  induction actions with
  | nil => rfl
  | cons a rest ih =>
    rcases ha : a.isMessage with _ | _
    · have hnone : a.carried? = none := by
        rcases hid : a.carried? with _ | id
        · rfl
        · rw [Action.isMessage_of_carried? hid] at ha
          cases ha
      rw [List.filter_cons_of_neg (by rw [ha]; exact Bool.false_ne_true),
        List.filterMap_cons_none hnone, ih]
    · rw [List.filter_cons_of_pos ha, List.filterMap_cons, List.filterMap_cons, ih]

/-- Where no number is carried twice, the message with a number is the first one with it. -/
theorem firstAnswer_of_mem {d : Compiled} {m : Method} {id : Int32} {a : Action}
    (h : (actions.filterMap Action.carried?).Nodup) (ha : a ∈ actions)
    (hid : a.carried? = some id) : firstAnswer d m id actions = a.answer? d m id := by
  induction actions with
  | nil => cases ha
  | cons b rest ih =>
    rw [firstAnswer_cons]
    rcases List.mem_cons.mp ha with rfl | ha
    · rw [List.filterMap_cons_some hid] at h
      have hrest : firstAnswer d m id rest = none := by
        refine List.findSome?_eq_none_iff.mpr fun b hb => Action.answer?_eq_none (fun hb' => ?_) d m
        exact (List.nodup_cons.mp h).1 (List.mem_filterMap.mpr ⟨b, hb, hb'⟩)
      rw [hrest, Option.or_none]
    · have hfirst : b.answer? d m id = none := by
        refine Action.answer?_eq_none (fun hb => ?_) d m
        rw [List.filterMap_cons_some hb] at h
        exact (List.nodup_cons.mp h).1 (List.mem_filterMap.mpr ⟨a, ha, hid⟩)
      have hrest : (rest.filterMap Action.carried?).Nodup :=
        h.sublist ((List.sublist_cons_self b rest).filterMap _)
      rw [hfirst, Option.none_or]
      exact ih hrest ha

namespace Reordered

variable {actions' : List Action}

theorem carried_nodup' (h : Reordered c actions actions') :
    (actions'.filterMap Action.carried?).Nodup := by
  rw [← filterMap_carried?]
  refine (h.messages_perm.filterMap Action.carried?).nodup ?_
  rw [filterMap_carried?]
  exact h.carried_nodup

theorem mem_iff (h : Reordered c actions actions') {a : Action} (ha : a.isMessage = true) :
    a ∈ actions ↔ a ∈ actions' := by
  have hmem := h.messages_perm.mem_iff (a := a)
  simpa [ha] using hmem

/-- A call gets the same answer in both runs. -/
theorem firstAnswer_eq (h : Reordered c actions actions') {d : Compiled} {t : Ticket}
    {later later' : List Action} (ht : (t, later) ∈ c.history actions)
    (ht' : (t, later') ∈ c.history actions') :
    firstAnswer d t.method t.id later = firstAnswer d t.method t.id later' := by
  have hsub := suffix_of_mem_history ht
  have hsub' := suffix_of_mem_history ht'
  by_cases hcarried : ∃ a ∈ actions, a.carried? = some t.id
  · obtain ⟨a, ha, hid⟩ := hcarried
    have ha' := (h.mem_iff (Action.isMessage_of_carried? hid)).mp ha
    rw [firstAnswer_of_mem (h.carried_nodup.sublist (hsub.sublist.filterMap _))
        (h.after_call t later ht a ha hid) hid,
      firstAnswer_of_mem (h.carried_nodup'.sublist (hsub'.sublist.filterMap _))
        (h.after_call' t later' ht' a ha' hid) hid]
  · have hnone : ∀ rest : List Action, (∀ a ∈ rest, a.carried? ≠ some t.id) →
        firstAnswer d t.method t.id rest = none := fun rest hrest =>
      List.findSome?_eq_none_iff.mpr fun a ha => Action.answer?_eq_none (hrest a ha) d t.method
    rw [hnone later fun a ha hid => hcarried ⟨a, hsub.subset ha, hid⟩,
      hnone later' fun a ha hid => hcarried ⟨a, ?_, hid⟩]
    exact (h.mem_iff (Action.isMessage_of_carried? hid)).mpr (hsub'.subset ha)

end Reordered

/-! ## Clients from their start -/

/-- What is true of a client after a run. -/
structure Correlated (c : Client) (actions : List Action) : Prop where
  /-- Accepted calls have numbers of their own and places in the order in which they were made. -/
  ids_nodup : ((c.history actions).map (·.1.id)).Nodup
  places_eq : (c.history actions).map (·.1.call) = List.range (c.run actions).calls.length
  /-- The two-way calls that wait are in the table, under their numbers, and nothing else is. -/
  pending_nodup : ((c.run actions).pending.map (·.1)).Nodup
  mem_pending_iff : ∀ id p, (id, p) ∈ (c.run actions).pending ↔
    ∃ t later, (t, later) ∈ c.history actions ∧ t.method.oneway = false ∧
      (c.run actions).calls[t.call]? = some .waiting ∧ id = t.id ∧ p = ⟨t.method, t.call⟩
  /-- The first message to a call settles it, and nobody answers a one-way call. -/
  calls_eq : ∀ t later, (t, later) ∈ c.history actions →
    (c.run actions).calls[t.call]? = some (t.stateAfter c.document later)
  /-- A call is settled once. -/
  settled_once : ∀ (more : List Action) (k : Nat) (outcome : CallOutcome),
    (c.run actions).calls[k]? = some (.settled outcome) →
      (c.run (actions ++ more)).calls[k]? = some (.settled outcome)
  /-- A message without a header, or with a number that nobody waits for, changes nothing. -/
  ignored : ∀ config input, (∀ id, (Action.receive config input).carried? = some id →
      ∀ e ∈ (c.run actions).pending, e.1 ≠ id) →
    c.run (actions ++ [.receive config input]) = c.run actions

/-- A message that nobody waits for leaves the client as it was. -/
theorem step_ignored {config : WireConfig} {input : Bytes}
    (h : ∀ id, (Action.receive config input).carried? = some id → ∀ e ∈ c.pending, e.1 ≠ id) :
    c.step (.receive config input) = c := by
  have hmoves := c.receive_moves config input
  generalize c.step (.receive config input) = next at hmoves
  cases hmoves with
  | dropped => rfl
  | settled hread hp =>
    have hid := Action.carried?_of_read hread
    exact absurd rfl (h _ hid _ (mem_of_lookup hp))
  | _ =>
    rename_i hsent
    cases hsent

theorem answered_eq_waiting_iff {answer : Option CallOutcome} :
    answered answer = .waiting ↔ answer = none := by
  rcases answer with _ | outcome
  · exact ⟨fun _ => rfl, fun _ => rfl⟩
  · constructor <;> intro h <;> cases h

theorem ofService_eq_ok {d : Compiled} {name : String} {config : WireConfig}
    (h : Client.ofService d name config = .ok c) : ∃ service, d.service? name = some service ∧
      c = ⟨d, service, config, Link.empty, 0, [], []⟩ := by
  unfold Client.ofService at h
  split at h
  · rename_i service hservice
    cases h
    exact ⟨service, hservice, rfl⟩
  · cases h

/-- A client that nothing was done with. -/
structure Fresh (c : Client) : Prop where
  sequenceId_eq : c.sequenceId = 0
  pending_eq : c.pending = []
  calls_eq : c.calls = []

namespace Fresh

theorem ofService {d : Compiled} {name : String} {config : WireConfig}
    (h : Client.ofService d name config = .ok c) : c.Fresh := by
  obtain ⟨service, -, rfl⟩ := ofService_eq_ok h
  exact ⟨rfl, rfl, rfl⟩

theorem sound (h : c.Fresh) : Sound 0 c := by
  refine ⟨h.sequenceId_eq, ?_, ?_, ?_, ?_⟩ <;> rw [h.pending_eq]
  · exact fun _ he => absurd he List.not_mem_nil
  · exact List.nodup_nil
  · exact List.nodup_nil
  · exact fun _ he => absurd he List.not_mem_nil

theorem places (h : c.Fresh) (actions : List Action) :
    (c.history actions).map (·.1.call) = List.range (c.run actions).calls.length := by
  obtain ⟨hlength, hplaces⟩ := c.history_places actions
  rw [h.calls_eq, List.length_nil, Nat.zero_add] at hlength
  rw [hplaces, hlength, h.calls_eq, List.range_eq_range']
  rfl

theorem mem_pending_iff (h : c.Fresh) (hn : c.givenOut actions < idCount) {id : Int32}
    {p : PendingCall} : (id, p) ∈ (c.run actions).pending ↔
      ∃ t later, (t, later) ∈ c.history actions ∧ t.method.oneway = false ∧
        (c.run actions).calls[t.call]? = some .waiting ∧ id = t.id ∧ p = ⟨t.method, t.call⟩ := by
  have hlt : 0 + c.givenOut actions < idCount := by omega
  rw [h.sound.mem_pending_run_iff hlt, h.pending_eq]
  have hwaits : ∀ t later, (t, later) ∈ c.history actions → t.method.oneway = false →
      ((c.run actions).calls[t.call]? = some .waiting ↔
        firstAnswer c.document t.method t.id later = none) := by
    intro t later ht htwo
    rw [h.sound.history_calls hlt ht, Ticket.stateAfter, htwo, if_neg Bool.false_ne_true,
      Option.some.injEq, answered_eq_waiting_iff]
  constructor
  · rintro (⟨he, -⟩ | ⟨t, later, ht, htwo, hnone, heq⟩)
    · cases he
    · cases heq
      exact ⟨t, later, ht, htwo, (hwaits t later ht htwo).mpr hnone, rfl, rfl⟩
  · rintro ⟨t, later, ht, htwo, hstate, rfl, rfl⟩
    exact .inr ⟨t, later, ht, htwo, (hwaits t later ht htwo).mp hstate, rfl⟩

theorem correlated (h : c.Fresh) (hn : c.givenOut actions < idCount) : c.Correlated actions := by
  have hlt : 0 + c.givenOut actions < idCount := by omega
  refine ⟨h.sound.history_ids_nodup hlt, h.places actions, (h.sound.run actions).ids_nodup,
    fun _ _ => h.mem_pending_iff hn, fun _ _ => h.sound.history_calls hlt, ?_, ?_⟩
  · intro more k outcome hk
    rw [run_append]
    exact settled_run hk more
  · intro config input hignored
    rw [run_append]
    exact step_ignored hignored

/-- The order of the messages makes no difference to any call. -/
theorem calls_eq_of_reordered (h : c.Fresh) {actions' : List Action}
    (hn : c.givenOut actions < idCount) (hn' : c.givenOut actions' < idCount)
    (hr : c.Reordered actions actions') : (c.run actions).calls = (c.run actions').calls := by
  have htickets : (c.history actions).map (·.1) = (c.history actions').map (·.1) := by
    rw [(SameSender.refl c).tickets_eq actions, (SameSender.refl c).tickets_eq actions', hr.sent_eq]
  have hlength : (c.run actions).calls.length = (c.run actions').calls.length := by
    rw [(c.history_places actions).1, (c.history_places actions').1]
    have := congrArg List.length htickets
    simpa using this
  refine List.ext_getElem? fun k => ?_
  by_cases hk : k < (c.run actions).calls.length
  · have hmem : k ∈ (c.history actions).map (·.1.call) := by
      rw [h.places]
      exact List.mem_range.mpr hk
    obtain ⟨⟨t, later⟩, ht, rfl⟩ := List.mem_map.mp hmem
    have hticket : t ∈ (c.history actions').map (·.1) := by
      rw [← htickets]
      exact List.mem_map.mpr ⟨(t, later), ht, rfl⟩
    obtain ⟨⟨t', later'⟩, ht', rfl⟩ := List.mem_map.mp hticket
    have hstate := h.sound.history_calls (by omega) ht
    have hstate' := h.sound.history_calls (by omega) ht'
    rw [hstate, hstate', Ticket.stateAfter, Ticket.stateAfter, hr.firstAnswer_eq ht ht']
  · rw [List.getElem?_eq_none (by omega), List.getElem?_eq_none (by omega)]

end Fresh

/-- In every run that has numbers for its calls, messages settle exactly the calls whose numbers
they carry, each by the first message to it. The order of the messages does not matter. -/
theorem run_correlated {d : Compiled} {name : String} {config : WireConfig} {c : Client}
    (hc : Client.ofService d name config = .ok c) :
    (∀ actions, c.givenOut actions < idCount → c.Correlated actions) ∧
      ∀ actions actions', c.givenOut actions < idCount → c.givenOut actions' < idCount →
        c.Reordered actions actions' → (c.run actions).calls = (c.run actions').calls :=
  ⟨fun _ hn => (Fresh.ofService hc).correlated hn,
    fun _ _ hn hn' hr => (Fresh.ofService hc).calls_eq_of_reordered hn hn' hr⟩

/-- A client of the small document that nothing was done with. -/
def ofLibrary : Client :=
  ⟨Document.libraryCodecs, Document.libraryService, {}, Link.empty, 0, [], []⟩

/-- An empty answer to the method `close` under a number below 256. -/
def closeAnswer (id : UInt8) : Bytes :=
  [0x80, 1, 0, 2, 0, 0, 0, 5, 0x63, 0x6c, 0x6f, 0x73, 0x65, 0, 0, 0, id, 0]

/-- Two calls, of which the second is answered first. -/
def answeredBackwards : List Action :=
  [.call "close" (.empty ""), .call "close" (.empty ""), .receive {} (closeAnswer 2),
    .receive {} (closeAnswer 1)]

/-- The same calls, of which the first is answered before the second is made. -/
def answeredAtOnce : List Action :=
  [.call "close" (.empty ""), .receive {} (closeAnswer 1), .call "close" (.empty ""),
    .receive {} (closeAnswer 2)]

theorem reordered_library : ofLibrary.Reordered answeredBackwards answeredAtOnce := by
  have hlater : ∀ {id : Int32} (before later : List Action),
      (∀ a ∈ before, a.carried? ≠ some id) →
        ∀ a ∈ before ++ later, a.carried? = some id → a ∈ later := by
    intro id before later hbefore a ha hid
    rcases List.mem_append.mp ha with ha | ha
    · exact absurd hid (hbefore a ha)
    · exact ha
  refine ⟨rfl, List.Perm.swap _ _ _, by decide, fun t later ht => ?_, fun t later ht => ?_⟩
  · have hhistory : ofLibrary.history answeredBackwards =
        [(⟨1, Document.closeMethod, 0⟩, answeredBackwards.drop 1),
          (⟨2, Document.closeMethod, 1⟩, answeredBackwards.drop 2)] := rfl
    rw [hhistory] at ht
    rcases List.mem_pair.mp ht with heq | heq <;> cases heq
    · exact hlater (answeredBackwards.take 1) _ (by decide)
    · exact hlater (answeredBackwards.take 2) _ (by decide)
  · have hhistory : ofLibrary.history answeredAtOnce =
        [(⟨1, Document.closeMethod, 0⟩, answeredAtOnce.drop 1),
          (⟨2, Document.closeMethod, 1⟩, answeredAtOnce.drop 3)] := rfl
    rw [hhistory] at ht
    rcases List.mem_pair.mp ht with heq | heq <;> cases heq
    · exact hlater (answeredAtOnce.take 1) _ (by decide)
    · exact hlater (answeredAtOnce.take 3) _ (by decide)

theorem run_correlated_library :
    Client.ofService Document.libraryCodecs "Library" {} = .ok ofLibrary ∧
      ofLibrary.Correlated answeredBackwards ∧
      ofLibrary.Reordered answeredBackwards answeredAtOnce ∧
      (ofLibrary.run answeredBackwards).calls = (ofLibrary.run answeredAtOnce).calls := by
  have hc : Client.ofService Document.libraryCodecs "Library" {} = .ok ofLibrary := rfl
  obtain ⟨hall, horder⟩ := run_correlated hc
  exact ⟨hc, hall _ (by decide), reordered_library,
    horder _ _ (by decide) (by decide) reordered_library⟩

end Client

end Thrift
