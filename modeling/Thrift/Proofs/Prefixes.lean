-- Input that is cut off. A reading goes by the bytes that it takes and by nothing behind them: what
-- it has come to, a value or a fault other than the end of the input, it comes to whatever follows.
-- So where it succeeds it needed every byte that it took, and with one byte less it finds the end.
import Thrift.Proofs.Closure
import Thrift.Proofs.DecodeRefines
import Thrift.Proofs.Message

namespace Thrift

/-- There were fewer bytes than a reading had to take. -/
def Fault.isEndOfInput : Fault → Bool
  | endOfInput _ _ => true
  | _ => false

theorem Fault.eq_endOfInput {e : Fault} (h : e.isEndOfInput = true) :
    ∃ needed available, e = .endOfInput needed available := by
  cases e with
  | endOfInput needed available => exact ⟨needed, available, rfl⟩
  | _ => cases h

namespace Reading

variable {α β σ : Type}

/-! ## What is found -/

/-- What a reading finds is in the bytes that it takes, and is read from them whatever follows. -/
def Delimits (m : Reading α) : Prop :=
  ∀ unread a rest, m unread = .ok a rest → ∃ bs, unread = bs ++ rest ∧ Reads m bs a

namespace Delimits

theorem pure (a : α) : Delimits (Pure.pure a : Reading α) := by
  intro unread b rest h
  obtain ⟨rfl, rfl⟩ := Steps.pure_eq_ok_iff.mp h
  exact ⟨[], rfl, .pure a⟩

theorem throw (e : Fault) : Delimits (throw e : Reading α) :=
  fun _ _ _ h => absurd h Steps.throw_ne_ok

theorem bind {m : Reading α} {f : α → Reading β} (hm : Delimits m) (hf : ∀ a, Delimits (f a)) :
    Delimits (m >>= f) := by
  intro unread b rest h
  obtain ⟨a, mid, ha, hb⟩ := Steps.bind_eq_ok_iff.mp h
  obtain ⟨bs, rfl, hbs⟩ := hm unread a mid ha
  obtain ⟨cs, rfl, hcs⟩ := hf a mid b rest hb
  exact ⟨bs ++ cs, (List.append_assoc bs cs rest).symm, hbs.bind hcs⟩

theorem take (n : Nat) : Delimits (take n) := by
  intro unread bs rest h
  obtain ⟨rfl, rfl⟩ := take_eq_ok_iff.mp h
  exact ⟨bs, rfl, take_reads bs⟩

/-- The induction is on the number of unread bytes, of which every header takes some. -/
theorem fields {body : FieldHeader → σ → Reading σ} (ht : ∀ header state, Takes (body header state))
    (hh : Delimits fieldHeader) (h : ∀ header state, Delimits (body header state)) (state : σ) :
    Delimits (fields body state) := by
  intro unread final rest hr
  induction hn : unread.length using Nat.strongRecOn generalizing unread state with
  | ind n ih =>
    rw [fields_eq ht] at hr ⊢
    obtain ⟨header, mid, hheader, hfields⟩ := Steps.bind_eq_ok_iff.mp hr
    have hmid := fieldHeader_shorter hheader
    obtain ⟨bs, rfl, hbs⟩ := hh unread header mid hheader
    by_cases hstop : header.type = .stop
    · rw [if_pos hstop] at hfields
      obtain ⟨cs, rfl, hcs⟩ := pure state mid final rest hfields
      refine ⟨bs ++ cs, (List.append_assoc bs cs rest).symm, hbs.bind ?_⟩
      rw [if_pos hstop]
      exact hcs
    · rw [if_neg hstop] at hfields
      obtain ⟨next, mid', hnext, hloop⟩ := Steps.bind_eq_ok_iff.mp hfields
      have hmid' := (ht header state).length_le hnext
      obtain ⟨cs, rfl, hcs⟩ := h header state mid next mid' hnext
      obtain ⟨ds, rfl, hds⟩ := ih mid'.length (by omega) next mid' hloop rfl
      refine ⟨bs ++ (cs ++ ds), by simp only [List.append_assoc], hbs.bind ?_⟩
      rw [if_neg hstop]
      exact hcs.bind hds

/-- What is found stays when the input goes on. -/
theorem extend {m : Reading α} (h : Delimits m) {unread rest : Bytes} {a : α}
    (hr : m unread = .ok a rest) (more : Bytes) : m (unread ++ more) = .ok a (rest ++ more) := by
  obtain ⟨bs, rfl, hbs⟩ := h unread a rest hr
  rw [List.append_assoc]
  exact hbs (rest ++ more)

theorem law : Law @Delimits where
  pure := .pure
  fail cause := .throw (.protocol cause)
  bind := .bind
  take := .take
  fields hh ht h state := .fields ht hh h state

end Delimits

/-! ## Faults that stay -/

/-- A fault other than the end of the input stays when the input goes on. -/
def Steady (m : Reading α) : Prop :=
  ∀ unread e rest more, m unread = .error e rest → e.isEndOfInput = false →
    m (unread ++ more) = .error e (rest ++ more)

namespace Steady

theorem pure (a : α) : Steady (Pure.pure a : Reading α) := by
  intro unread e rest more h
  cases h

theorem throw (e : Fault) : Steady (throw e : Reading α) := by
  intro unread e' rest more h _
  cases h
  rfl

/-- The first part may succeed before the second one fails, so what it found must stay too. -/
theorem bind {m : Reading α} {f : α → Reading β} (hm : Delimits m) (hsteady : Steady m)
    (hf : ∀ a, Steady (f a)) : Steady (m >>= f) := by
  intro unread e rest more h hend
  rcases ha : m unread with ⟨a, mid⟩ | ⟨e', mid⟩
  · rw [Steps.bind_ok ha] at h
    rw [Steps.bind_ok (hm.extend ha more)]
    exact hf a mid e rest more h hend
  · rw [Steps.bind_error ha] at h
    cases h
    exact Steps.bind_error (hsteady unread e rest more ha hend) f

/-- Taking bytes fails at the end of the input only. -/
theorem take (n : Nat) : Steady (take n) := by
  intro unread e rest more h hend
  unfold Reading.take at h
  split at h
  · cases h
    cases hend
  · cases h

theorem fields {body : FieldHeader → σ → Reading σ} (ht : ∀ header state, Takes (body header state))
    (hb : ∀ header state, Delimits (body header state)) (hh : Steady fieldHeader)
    (h : ∀ header state, Steady (body header state)) (state : σ) : Steady (fields body state) := by
  intro unread e rest more hr hend
  induction hn : unread.length using Nat.strongRecOn generalizing unread state with
  | ind n ih =>
    rw [fields_eq ht] at hr ⊢
    rcases hheader : fieldHeader unread with ⟨header, mid⟩ | ⟨e', mid⟩
    · have hmid := fieldHeader_shorter hheader
      rw [Steps.bind_ok hheader] at hr
      rw [Steps.bind_ok (Delimits.law.fieldHeader.extend hheader more)]
      by_cases hstop : header.type = .stop
      · rw [if_pos hstop] at hr
        cases hr
      · rw [if_neg hstop] at hr ⊢
        rcases hnext : body header state mid with ⟨next, mid'⟩ | ⟨e', mid'⟩
        · have hmid' := (ht header state).length_le hnext
          rw [Steps.bind_ok hnext] at hr
          rw [Steps.bind_ok ((hb header state).extend hnext more)]
          exact ih mid'.length (by omega) next mid' hr rfl
        · rw [Steps.bind_error hnext] at hr
          cases hr
          exact Steps.bind_error (h header state mid e rest more hnext hend) _
    · rw [Steps.bind_error hheader] at hr
      cases hr
      exact Steps.bind_error (hh unread e rest more hheader hend) _

end Steady

/-! ## Framing -/

/-- What a reading comes to stays, whatever follows; only the end of the input may be put off. -/
structure Framed (m : Reading α) : Prop where
  found : Delimits m
  failed : Steady m

theorem Framed.law : Law @Framed where
  pure a := ⟨.pure a, .pure a⟩
  fail cause := ⟨.throw (.protocol cause), .throw (.protocol cause)⟩
  bind hm hf :=
    ⟨.bind hm.found fun a => (hf a).found, .bind hm.found hm.failed fun a => (hf a).failed⟩
  take n := ⟨.take n, .take n⟩
  fields hh ht hb state :=
    ⟨.fields ht hh.found (fun header state => (hb header state).found) state,
      .fields ht (fun header state => (hb header state).found) hh.failed
        (fun header state => (hb header state).failed) state⟩

/-- The input ends before the reading comes to anything. -/
def CutOff (m : Reading α) (input : Bytes) : Prop :=
  ∃ needed available rest, m input = .error (.endOfInput needed available) rest

/-- How a reading finds its own end. The bytes that it takes give the same value before any other
continuation, and each proper prefix of them is cut off. Any other fault than the end of the input
is the fault of every longer input too. -/
structure SelfDelimiting (m : Reading α) : Prop where
  taken : ∀ input a rest, m input = .ok a rest → ∃ bs, input = bs ++ rest ∧
    (∀ more, m (bs ++ more) = .ok a more) ∧ ∀ part, part <+: bs → part ≠ bs → CutOff m part
  failed : ∀ input e rest, m input = .error e rest → e.isEndOfInput = false →
    ∀ more, m (input ++ more) = .error e (rest ++ more)

/-- What comes to anything before its end would come to the same with the rest of its bytes. -/
theorem Framed.cutOff {m : Reading α} (h : Framed m) {bs part : Bytes} {a : α} (hbs : Reads m bs a)
    (hpart : part <+: bs) (hne : part ≠ bs) : CutOff m part := by
  obtain ⟨tail, rfl⟩ := hpart
  have hwhole := hbs []
  rw [List.append_nil] at hwhole
  rcases hr : m part with ⟨b, rest⟩ | ⟨e, rest⟩
  · have hlonger := (h.found.extend hr tail).symm.trans hwhole
    have htail : rest ++ tail = [] := (EStateM.Result.ok.inj hlonger).2
    rw [(List.append_eq_nil_iff.mp htail).2, List.append_nil] at hne
    exact absurd rfl hne
  · rcases hend : e.isEndOfInput with _ | _
    · cases (h.failed part e rest tail hr hend).symm.trans hwhole
    · obtain ⟨needed, available, rfl⟩ := Fault.eq_endOfInput hend
      exact ⟨needed, available, rest, hr⟩

theorem Framed.delimits_itself {m : Reading α} (h : Framed m) : SelfDelimiting m where
  taken := by
    intro input a rest hr
    obtain ⟨bs, hinput, hbs⟩ := h.found input a rest hr
    exact ⟨bs, hinput, hbs, fun part hpart hne => h.cutOff hbs hpart hne⟩
  failed input e rest hr hend more := h.failed input e rest more hr hend

end Reading

/-! ## Documents -/

open Reading (Framed SelfDelimiting)

/-- Structs of a compiled document, values that are passed over, exceptions and headers of messages
all find their own end. -/
theorem Document.selfDelimiting {d : Document} {c : Compiled} (hc : d.compile = .ok c)
    (config : WireConfig) :
    (∀ carrier ∈ d.carriers, SelfDelimiting (Machine.decode c config carrier.2.name)) ∧
      (∀ type, SelfDelimiting (Reading.skip config type)) ∧
      SelfDelimiting (ApplicationException.read config) ∧
      SelfDelimiting (MessageHeader.read config) := by
  refine ⟨fun carrier hcarrier => ?_, fun type => (Framed.law.skip config type).delimits_itself,
    (Framed.law.exception config).delimits_itself,
    (Framed.law.messageHeader config).delimits_itself⟩
  obtain ⟨s, hs, hrealizes⟩ := Compiled.realizes_of_compile hc
  obtain ⟨t, ht, -⟩ := declares_of_compile hc
  have hclosed := closed_of_compile hc ht hs hrealizes
  obtain ⟨r, -, hr⟩ := record_of_carrier hc ht hs hrealizes hcarrier
  rw [Machine.decode, Machine.decodeWithin_eq hrealizes (Nat.le_refl _)]
  exact (Framed.law.struct hclosed Record.built config config.maxDepth hr).delimits_itself

/-- A shelf with a label only. -/
def Document.plainShelf : Bytes := [11, 0, 1, 0, 0, 0, 1, 97, 0]

theorem Document.selfDelimiting_shelf : ∃ c, shelf.compile = .ok c ∧
    (∀ more, Machine.decode c {} "Shelf" (plainShelf ++ more) =
      .ok ⟨"Shelf", [("label", .string "a"), ("room", .i32 7)]⟩ more) ∧
    (∀ part, part <+: plainShelf → part ≠ plainShelf →
      Reading.CutOff (Machine.decode c {} "Shelf") part ∧
        Reading.CutOff (Reading.skip {} .struct) part) ∧
    ∀ more, Machine.decode c {} "Shelf" (0 :: more) =
      .error (.protocol (.unreadable "Shelf")) more := by
  obtain ⟨hstructs, hskip, -, -⟩ := selfDelimiting (d := shelf) rfl {}
  have hdecode := hstructs _ List.mem_cons_self
  obtain ⟨bs, hbs, hmore, hparts⟩ := hdecode.taken plainShelf _ [] rfl
  obtain ⟨cs, hcs, -, hskipped⟩ := (hskip .struct).taken plainShelf () [] rfl
  rw [List.append_nil] at hbs hcs
  subst hbs hcs
  exact ⟨_, rfl, hmore, fun part h hne => ⟨hparts part h hne, hskipped part h hne⟩,
    hdecode.failed [0] _ [] rfl rfl⟩

end Thrift
