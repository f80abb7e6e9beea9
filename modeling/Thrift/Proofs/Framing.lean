-- Messages in a stream. What stands behind a value has no part in reading it, so a message that
-- is a header and a struct ends where the next one begins. Whoever reads the struct by a schema
-- ends there too, or fails on the way, or was told another tag than the declared one.
import Thrift.Proofs.Answers
import Thrift.Proofs.Correlation
import Thrift.Proofs.Prefixes
import Thrift.Proofs.Survey

namespace Thrift

namespace Reading

variable {α : Type}

/-! ## What stands behind -/

/-- What stands behind the bytes that are taken changes nothing. -/
def Local (m : Reading α) : Prop :=
  ∀ unread a rest more, m unread = .ok a rest → m (unread ++ more) = .ok a (rest ++ more)

theorem Local.of_delimits {m : Reading α} (h : Delimits m) : Local m :=
  fun _ _ _ more hr => h.extend hr more

/-- A value that is passed over ends at the same place, whatever follows. -/
theorem skipWithin_local (c : WireConfig) (depth : Nat) (type : WireType) :
    Local (skipWithin c depth type) := .of_delimits (Delimits.law.skipWithin c depth type)

/-- Values of a tag end at one place only. -/
theorem Suffices.unique {body : Nat → Reading Unit} (h : Deepens body) {unread rest rest' : Bytes}
    (hr : Suffices body unread rest) (hr' : Suffices body unread rest') : rest = rest' := by
  obtain ⟨depth, hr⟩ := hr
  obtain ⟨depth', hr'⟩ := hr'
  have hboth := (h.ok (Nat.le_max_left depth depth') hr).symm.trans
    (h.ok (Nat.le_max_right depth depth') hr')
  cases hboth
  rfl

end Reading

open Reading (Delimits Local Passes Suffices skipFields)

theorem MessageHeader.read_local (c : WireConfig) : Local (read c) :=
  .of_delimits (Delimits.law.messageHeader c)

/-! ## Where bodies end -/

namespace ApplicationException

theorem readField_passes {c : WireConfig} {header : Reading.FieldHeader}
    {e next : ApplicationException} {unread rest : Bytes}
    (h : readField c header e unread = .ok next rest) : Passes c header.type unread rest := by
  unfold readField at h
  split at h
  · rename_i hheader
    obtain ⟨s, hs, -⟩ := Steps.map_eq_ok_iff.mp h
    have hvalue : Machine.readScalar c .string unread = .ok (.string s) rest :=
      Steps.map_ok hs _
    rw [hheader.2]
    exact Machine.readScalar_passes hvalue
  · split at h
    · rename_i hheader
      obtain ⟨code, hcode, -⟩ := Steps.map_eq_ok_iff.mp h
      rw [hheader.2]
      exact ⟨1, Steps.map_ok hcode _⟩
    · obtain ⟨_, hskip, -⟩ := Steps.map_eq_ok_iff.mp h
      exact ⟨c.maxDepth, hskip⟩

/-- An exception that is read ends where a struct ends. -/
theorem read_passes {c : WireConfig} {e : ApplicationException} {unread rest : Bytes}
    (h : read c unread = .ok e rest) : Passes c .struct unread rest := by
  refine Reading.passes_struct ?_
  unfold read at h
  generalize (⟨.unknown, ""⟩ : ApplicationException) = before at h
  induction hn : unread.length using Nat.strongRecOn generalizing unread before with
  | ind n ih =>
    rw [Reading.fields_eq (readField_takes c)] at h
    obtain ⟨header, mid, hheader, h⟩ := Steps.bind_eq_ok_iff.mp h
    have hmid := Reading.fieldHeader_shorter hheader
    split at h
    · rename_i hstop
      obtain ⟨-, rfl⟩ := Steps.pure_eq_ok_iff.mp h
      exact Reading.skipFields_stop hheader hstop
    · rename_i hstop
      obtain ⟨next, mid', hnext, h⟩ := Steps.bind_eq_ok_iff.mp h
      have hmid' := (readField_takes c header before).length_le hnext
      exact Reading.skipFields_field hheader hstop (readField_passes hnext)
        (ih mid'.length (by omega) next h rfl)

end ApplicationException

/-- The survey of a struct meets a container that tells another tag than the declared one. -/
def Schema.Mistold (s : Schema) (c : WireConfig) (name : String) (input rest : Bytes) : Prop :=
  ∃ tags, s.survey c name input = .ok tags rest ∧ ∃ tag ∈ tags, ¬ tag.Holds

/-- A struct that is decoded ends where it is passed over, unless another tag is told. -/
theorem Machine.decode_ends {d : Compiled} {s : Schema} (hs : d.RealizesSchema s)
    {c : WireConfig} {name : String} {v : StructValue} {input rest rest' : Bytes}
    (h : decode d c name input = .ok v rest') (hskip : Reading.skip c .struct input = .ok () rest) :
    rest' = rest ∨ s.Mistold c name input rest' := by
  rw [decode, decodeWithin_eq hs (Nat.le_refl _)] at h
  obtain ⟨tags, htags, -⟩ := s.readWithin_tracks _ c _ name input v rest' h
  by_cases hholds : ∀ tag ∈ tags, tag.Holds
  · have hpasses := s.surveyWithin_endsAs c _ name input tags rest' htags hholds
    exact .inl (hpasses.unique (Reading.skipWithin_deepens c .struct) ⟨c.maxDepth, hskip⟩)
  · obtain ⟨tag, htag⟩ := not_forall.mp hholds
    obtain ⟨hmem, hnot⟩ := Classical.not_imp.mp htag
    exact .inr ⟨tags, htags, tag, hmem, hnot⟩

namespace Client

/-- A body that is read as an answer ends where it is passed over, unless another tag is told. -/
theorem readBody_ends {d : Compiled} {s : Schema} (hs : d.RealizesSchema s) {c : WireConfig}
    {m : Method} {h : MessageHeader} {outcome : CallOutcome} {body rest rest' : Bytes}
    (hread : readBody d c m h body = .ok outcome rest')
    (hskip : Reading.skip c .struct body = .ok () rest) :
    rest' = rest ∨ ∃ struct, m.resultStruct = some struct ∧ s.Mistold c struct body rest' := by
  have hrefused : ∀ e, refuseBody c e body = .ok outcome rest' → rest' = rest := by
    intro e he
    obtain ⟨_, mid, hmid, he⟩ := Steps.bind_eq_ok_iff.mp he
    cases hmid.symm.trans hskip
    cases he
    rfl
  rcases htype : h.type with _ | _ | _ | _
  · rw [readBody, htype] at hread
    exact .inl (hrefused _ hread)
  · by_cases hname : h.name = m.name
    · rcases hstruct : m.resultStruct with _ | struct
      · rw [readBody, htype] at hread
        dsimp only at hread
        rw [if_neg (not_not.mpr hname), hstruct] at hread
        cases hread
      · rw [readBody_reply htype hname hstruct] at hread
        obtain ⟨v, hv, -⟩ := Steps.map_eq_ok_iff.mp hread
        exact (Machine.decode_ends hs hv hskip).imp id fun hmistold => ⟨struct, rfl, hmistold⟩
    · rw [readBody, htype] at hread
      dsimp only at hread
      rw [if_pos hname] at hread
      exact .inl (hrefused _ hread)
  · rw [readBody_exception htype] at hread
    obtain ⟨e, he, -⟩ := Steps.map_eq_ok_iff.mp hread
    exact .inl ((ApplicationException.read_passes he).unique
      (Reading.skipWithin_deepens c .struct) ⟨c.maxDepth, hskip⟩)
  · rw [readBody, htype] at hread
    exact .inl (hrefused _ hread)

/-- How a client loses its place: an answer is not read to its end, and the call is settled all
the same, or it tells another tag than the declared one. -/
inductive OutOfStep (s : Schema) (c : Client) (config : WireConfig) (h : MessageHeader)
    (body rest : Bytes) : Client → Prop
  | broken {p : PendingCall} {fault : Fault} (hp : c.pending.lookup h.sequenceId = some p)
      (hread : readBody c.document config p.method h body = .error fault rest) :
      OutOfStep s c config h body rest
        ((c.removePending h.sequenceId).settleCall p.call (.error (.protocol fault)))
  | mistold {p : PendingCall} {struct : String} {next : Client}
      (hp : c.pending.lookup h.sequenceId = some p) (hstruct : p.method.resultStruct = some struct)
      (htags : s.Mistold config struct body rest) : OutOfStep s c config h body rest next

/-- A message that a client takes ends with its struct. -/
theorem receive_ends {c next : Client} {s : Schema} (hs : c.document.RealizesSchema s)
    {config : WireConfig} {h : MessageHeader} {input body rest rest' : Bytes}
    (hread : MessageHeader.read config input = .ok h body)
    (hskip : Reading.skip config .struct body = .ok () rest)
    (hreceive : c.receive config input = .ok next rest') :
    rest' = rest ∨ c.OutOfStep s config h body rest' next := by
  rw [receive, Steps.bind_ok hread] at hreceive
  rcases hp : c.pending.lookup h.sequenceId with _ | p
  · rw [hp] at hreceive
    dsimp only at hreceive
    rw [Steps.bind_ok hskip] at hreceive
    exact .inl (Steps.pure_eq_ok_iff.mp hreceive).2.symm
  · rw [hp] at hreceive
    obtain ⟨outcome, mid, hbody, hreceive⟩ := Steps.bind_eq_ok_iff.mp hreceive
    obtain ⟨rfl, rfl⟩ := Steps.pure_eq_ok_iff.mp hreceive
    rw [orProtocol] at hbody
    rcases hb : readBody c.document config p.method h body with ⟨answer, end'⟩ | ⟨fault, end'⟩
    · rw [hb] at hbody
      cases hbody
      refine (readBody_ends hs hb hskip).imp id ?_
      rintro ⟨struct, hstruct, htags⟩
      exact .mistold hp hstruct htags
    · rw [hb] at hbody
      cases hbody
      exact .inr (.broken hp hb)

end Client

namespace Processor

/-- How a processor loses its place: arguments are not read to their end, or tell another tag
than the declared one. -/
inductive OutOfStep (s : Schema) (p : Processor) (config : WireConfig) (h : MessageHeader)
    (body rest : Bytes) : Prop
  | broken {m : Method} {fault : Fault} (hm : p.service.method? h.name = some m)
      (hargs : Machine.decode p.document config m.argsStruct body = .error fault rest)
  | mistold {m : Method} (hm : p.service.method? h.name = some m)
      (htags : s.Mistold config m.argsStruct body rest)

theorem ending_unread (handled : List (String × StructValue)) (unread : Bytes) (output : Link)
    (message : Writing Unit) : (ending handled unread output message).unread = unread := by
  unfold ending
  split <;> rfl

/-- A message that a processor serves ends with its struct. -/
theorem process_ends {p : Processor} {s : Schema} (hs : p.document.RealizesSchema s)
    {readConfig config : WireConfig} {output : Link} {h : MessageHeader} {input body rest : Bytes}
    (hread : MessageHeader.read readConfig input = .ok h body)
    (hskip : Reading.skip readConfig .struct body = .ok () rest) :
    (p.process readConfig config input output).unread = rest ∨
      p.OutOfStep s readConfig h body (p.process readConfig config input output).unread := by
  rw [process_of_read hread]
  rcases hm : p.service.method? h.name with _ | m
  · dsimp only [refuse, EStateM.run]
    rw [hskip]
    exact .inl (ending_unread _ _ _ _)
  · dsimp only [dispatch, EStateM.run]
    rcases hargs : Machine.decode p.document readConfig m.argsStruct body with
      ⟨args, mid⟩ | ⟨fault, mid⟩
    · have hunread : (if m.oneway then (⟨.ok (), [(m.name, args)], mid, output⟩ : Served)
          else ending [(m.name, args)] mid output
            (p.answer config h m (p.handler m.name args))).unread = mid := by
        split
        · rfl
        · exact ending_unread _ _ _ _
      dsimp only
      rw [hunread]
      exact (Machine.decode_ends hs hargs hskip).imp id (.mistold hm)
    · have hunread : (refuseArguments config h m fault mid output).unread = mid := by
        unfold refuseArguments
        dsimp only
        split
        · rfl
        · split <;> rfl
      dsimp only
      rw [hunread]
      exact .inr (.broken hm hargs)

end Processor

/-- A message that is a header and a whole struct is taken up to its end, whatever follows, unless
the struct cannot be read by the schema or tells other tags than the declared ones. -/
theorem Document.messages_in_step {d : Document} {c : Compiled} (hc : d.compile = .ok c) :
    ∃ s, d.schema = .ok s ∧ ∀ (config : WireConfig) (h : MessageHeader)
      (message body rest : Bytes), MessageHeader.read config message = .ok h body →
        Reading.skip config .struct body = .ok () [] →
          (∀ (client next : Client) (unread : Bytes), client.document = c →
            client.receive config (message ++ rest) = .ok next unread →
              unread = rest ∨ client.OutOfStep s config h (body ++ rest) unread next) ∧
          ∀ (p : Processor) (sending : WireConfig) (output : Link), p.document = c →
            (p.process config sending (message ++ rest) output).unread = rest ∨
              p.OutOfStep s config h (body ++ rest)
                (p.process config sending (message ++ rest) output).unread := by
  obtain ⟨s, hschema, hs⟩ := Compiled.realizes_of_compile hc
  refine ⟨s, hschema, fun config h message body rest hread hskip => ?_⟩
  have hread' := MessageHeader.read_local config message h body rest hread
  have hskip' := Reading.skipWithin_local config config.maxDepth .struct body () [] rest hskip
  rw [List.nil_append] at hskip'
  constructor
  · rintro client next unread rfl hreceive
    exact Client.receive_ends hs hread' hskip' hreceive
  · rintro p sending output rfl
    exact Processor.process_ends hs hread' hskip'

/-- A client that waits for the answer to `find`. -/
def Client.waitingForBook : Client := Client.ofLibrary.run [.call "find" (.empty "")]

/-- The result of `find` with a book. -/
def Client.titledBody : Bytes := [0x0c, 0, 0, 0x0b, 0, 1, 0, 0, 0, 1, 0x61, 0, 0]

def Client.titledAnswer : Bytes :=
  [0x80, 1, 0, 2, 0, 0, 0, 4, 0x66, 0x69, 0x6e, 0x64, 0, 0, 0, 1] ++ titledBody

/-- The client reads the book to its end, and no container is in it. -/
theorem Client.waitingForBook_in_step (unread : Bytes) (next : Client) :
    ¬ waitingForBook.OutOfStep Document.librarySchema {} ⟨"find", .reply, 1⟩
      (titledBody ++ closeAnswer 2) unread next := by
  have hpending : waitingForBook.pending.lookup 1 = some ⟨Document.findMethod, 0⟩ := rfl
  rintro (⟨hp, hread⟩ | ⟨hp, hstruct, tags, htags, tag, hmem, -⟩)
  · cases hpending.symm.trans hp
    have hbody : ∃ outcome, readBody waitingForBook.document {} Document.findMethod
        ⟨"find", .reply, 1⟩ (titledBody ++ closeAnswer 2) = .ok outcome (closeAnswer 2) := ⟨_, rfl⟩
    obtain ⟨_, hbody⟩ := hbody
    cases hbody.symm.trans hread
  · cases hpending.symm.trans hp
    cases hstruct
    have hsurvey : Document.librarySchema.survey {} "LibraryFindResult"
        (titledBody ++ closeAnswer 2) = .ok [] (closeAnswer 2) := rfl
    cases hsurvey.symm.trans htags
    exact absurd hmem List.not_mem_nil

/-- The arguments of a call are read to their end, and no container is in them. -/
theorem Processor.findCall_in_step (unread : Bytes) :
    ¬ ofLibrary.OutOfStep Document.librarySchema {} ⟨"find", .call, 1⟩ ([0] ++ findCall)
      unread := by
  have hmethod : ofLibrary.service.method? "find" = some Document.findMethod := rfl
  rintro (⟨hm, hargs⟩ | ⟨hm, tags, htags, tag, hmem, -⟩)
  · cases hmethod.symm.trans hm
    cases hargs
  · cases hmethod.symm.trans hm
    have hsurvey : Document.librarySchema.survey {} "LibraryFindArgs" ([0] ++ findCall) =
        .ok [] findCall := rfl
    cases hsurvey.symm.trans htags
    exact absurd hmem List.not_mem_nil

theorem Document.messages_in_step_library : library.schema = .ok librarySchema ∧
    MessageHeader.read {} Client.titledAnswer = .ok ⟨"find", .reply, 1⟩ Client.titledBody ∧
    Reading.skip {} .struct Client.titledBody = .ok () [] ∧
    (∃ next, Client.waitingForBook.receive {} (Client.titledAnswer ++ Client.closeAnswer 2) =
        .ok next (Client.closeAnswer 2) ∧
      next.calls = [.settled (.ok (.struct "Book" [("title", .string "a")]))]) ∧
    (Processor.ofLibrary.process {} {} (Processor.findCall ++ Processor.findCall)
      Link.empty).unread = Processor.findCall := by
  obtain ⟨s, hs, h⟩ := messages_in_step compile_library
  cases schema_library.symm.trans hs
  have hread : MessageHeader.read {} Client.titledAnswer =
      .ok ⟨"find", .reply, 1⟩ Client.titledBody := rfl
  have hskip : Reading.skip {} .struct Client.titledBody = .ok () [] := rfl
  obtain ⟨hreceive, -⟩ := h {} _ _ _ (Client.closeAnswer 2) hread hskip
  obtain ⟨-, hprocess⟩ := h {} _ _ _ Processor.findCall Processor.read_findCall rfl
  obtain ⟨next, unread, hnext, hcalls⟩ : ∃ next unread,
      Client.waitingForBook.receive {} (Client.titledAnswer ++ Client.closeAnswer 2) =
        .ok next unread ∧
      next.calls = [.settled (.ok (.struct "Book" [("title", .string "a")]))] := ⟨_, _, rfl, rfl⟩
  obtain rfl := (hreceive _ next unread rfl hnext).resolve_right
    (Client.waitingForBook_in_step unread next)
  exact ⟨hs, hread, hskip, ⟨next, hnext, hcalls⟩,
    (hprocess _ {} Link.empty rfl).resolve_right (Processor.findCall_in_step _)⟩

/-- A reply to `find` with a book in it that has no title. -/
def Client.untitledAnswer : Bytes :=
  [0x80, 1, 0, 2, 0, 0, 0, 4, 0x66, 0x69, 0x6e, 0x64, 0, 0, 0, 1, 0x0c, 0, 0, 0, 0]

/-- A call of `find` that asks for a book without a title. -/
def Processor.untitledCall : Bytes :=
  [0x80, 1, 0, 1, 0, 0, 0, 4, 0x66, 0x69, 0x6e, 0x64, 0, 0, 0, 1, 0x0c, 0, 1, 0, 0]

/-- A book that lacks its title stands whole in its message, but reading stops inside of it. The
end of the message is left in front of the next one, though the call is settled and the service
has answered. -/
theorem Document.out_of_step_untitled :
    (MessageHeader.read {} Client.untitledAnswer = .ok ⟨"find", .reply, 1⟩ [0x0c, 0, 0, 0, 0] ∧
      Reading.skip {} .struct [0x0c, 0, 0, 0, 0] = .ok () [] ∧
      ∃ next fault, Client.waitingForBook.receive {}
          (Client.untitledAnswer ++ Client.closeAnswer 2) = .ok next (0 :: Client.closeAnswer 2) ∧
        next.calls = [.settled (.error (.protocol fault))]) ∧
    MessageHeader.read {} Processor.untitledCall = .ok ⟨"find", .call, 1⟩ [0x0c, 0, 1, 0, 0] ∧
    Reading.skip {} .struct [0x0c, 0, 1, 0, 0] = .ok () [] ∧
    (Processor.ofLibrary.process {} {} (Processor.untitledCall ++ Processor.findCall)
      Link.empty).output.frames.length = 1 ∧
    (Processor.ofLibrary.process {} {} (Processor.untitledCall ++ Processor.findCall)
      Link.empty).unread = 0 :: Processor.findCall :=
  ⟨⟨rfl, rfl, _, _, rfl, rfl⟩, rfl, rfl, rfl, rfl⟩

end Thrift
