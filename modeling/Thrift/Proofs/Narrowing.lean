-- Narrower limits. Whatever is decoded, passed over or read as a header ends under narrower limits
-- as it does under wider ones, or tells of a limit. So wider limits keep every result.
import Thrift.Machine.Decode
import Thrift.Proofs.Limits
import Thrift.Proofs.Message
import Thrift.Proofs.Segments

namespace Thrift

open Machine (Flow Frame Surroundings)

/-- The fault tells that a size or a depth is over its limit. -/
def Fault.IsLimit : Fault → Prop
  | .protocol cause => cause.kind = .sizeLimit ∨ cause.kind = .depthLimit
  | _ => False

/-- No limit on what is read is above the other one, and the same headers are refused for their
lack of a version. How headers are written does not matter. -/
structure WireConfig.Narrows (c wider : WireConfig) : Prop where
  strictRead_eq : c.strictRead = wider.strictRead
  string_le : c.maxStringSize ≤ wider.maxStringSize
  container_le : c.maxContainerSize ≤ wider.maxContainerSize
  depth_le : c.maxDepth ≤ wider.maxDepth

namespace Reading

variable {α : Type}

/-- The first reading tells of a limit or ends as the second one does, and what it gives the second
one gives as well. -/
structure Narrowed (m n : Reading α) : Prop where
  curbed : Curbed Fault.IsLimit m n
  kept : ∀ unread a rest, m unread = .ok a rest → n unread = .ok a rest

theorem Curbed.narrowed {m n : Reading α} (h : Curbed Fault.IsLimit m n) : Narrowed m n := by
  refine ⟨h, fun unread a rest hm => ?_⟩
  rcases h unread with heq | ⟨e, left, -, hstop⟩
  · exact heq.symm.trans hm
  · cases hm.symm.trans hstop

theorem Curbed.fail {cause : ProtocolFault} (h : (Fault.protocol cause).IsLimit) (n : Reading α) :
    Curbed Fault.IsLimit (fail cause) n := .stop h n

/-! ## Sizes -/

/-- A size between the two limits is refused by the narrower one. -/
theorem size_curbed (what : Sized) {limit limit' : Nat} (h : limit ≤ limit') :
    Curbed Fault.IsLimit (size what limit) (size what limit') := by
  rw [size_eq, size_eq]
  refine (Curbed.refl i32).bind fun n => ?_
  by_cases hneg : n < 0
  · rw [if_pos hneg, if_pos hneg]
    exact .refl _
  · rw [if_neg hneg, if_neg hneg]
    by_cases hover : limit < n.toInt.toNat
    · rw [if_pos hover]
      exact .fail (.inl rfl) _
    · rw [if_neg hover, if_neg (by omega)]
      exact .refl _

variable {c wider : WireConfig}

theorem sizesCurbed (h : c.Narrows wider) : SizesCurbed Fault.IsLimit c wider :=
  ⟨fun what => size_curbed what h.string_le, fun what => size_curbed what h.container_le⟩

theorem string_curbed (h : c.Narrows wider) : Curbed Fault.IsLimit (string c) (string wider) := by
  unfold string
  exact (sizesCurbed h).binary.bind fun bs => .refl _

theorem skip_curbed_of_narrows (h : c.Narrows wider) (type : WireType) :
    Curbed Fault.IsLimit (skip c type) (skip wider type) :=
  (sizesCurbed h).skipWithin (.inr rfl) h.depth_le type

end Reading

open Reading (Curbed Narrowed)

variable {c wider : WireConfig}

/-! ## Headers -/

namespace MessageHeader

theorem readVersioned_curbed (h : c.Narrows wider) (word : UInt32) :
    Curbed Fault.IsLimit (readVersioned c word) (readVersioned wider word) := by
  rw [readVersioned_eq, readVersioned_eq]
  split
  · exact .refl _
  · exact (Curbed.refl _).bind fun type => (Reading.string_curbed h).bind fun name => .refl _

/-- Without a version word the size of the name is judged by a check of its own. -/
theorem readPlain_curbed (h : c.Narrows wider) (size : Nat) :
    Curbed Fault.IsLimit (readPlain c size) (readPlain wider size) := by
  rw [readPlain_eq, readPlain_eq, h.strictRead_eq]
  split
  · exact .refl _
  · have hle := h.string_le
    by_cases hover : c.maxStringSize < size
    · rw [if_pos hover]
      exact .fail (.inl rfl) _
    · rw [if_neg hover, if_neg (by omega)]
      exact .refl _

theorem read_curbed (h : c.Narrows wider) : Curbed Fault.IsLimit (read c) (read wider) := by
  refine (Curbed.refl Reading.i32).bind fun first => ?_
  split
  · exact readVersioned_curbed h first.toUInt32
  · exact readPlain_curbed h first.toInt.toNat

end MessageHeader

/-! ## Procedures -/

namespace Machine

/-- Narrower limits, and structs inside that are read as under the wider ones or tell of a limit. -/
structure Surroundings.Narrows (s wider : Surroundings) : Prop where
  config : s.config.Narrows wider.config
  nested : ∀ name, Curbed Fault.IsLimit (s.nested name) (wider.nested name)

theorem readScalar_curbed (h : c.Narrows wider) (kind : ScalarKind) :
    Curbed Fault.IsLimit (readScalar c kind) (readScalar wider kind) := by
  cases kind with
  | string => exact (Reading.string_curbed h).map _
  | binary => exact (Reading.sizesCurbed h).binary.map _
  | _ => exact .refl _

theorem readSize_curbed (h : c.Narrows wider) (kind : ContainerKind) :
    Curbed Fault.IsLimit (readSize c kind) (readSize wider kind) := by
  cases kind with
  | list element => exact (Reading.sizesCurbed h).listHeader.map _
  | set element => exact (Reading.sizesCurbed h).setHeader.map _
  | map key value => exact (Reading.sizesCurbed h).mapHeader.map _

theorem readValue_curbed {s wider : Surroundings} (h : s.Narrows wider) (codec : ValueCodec) :
    Curbed Fault.IsLimit (readValue s codec) (readValue wider codec) := by
  cases codec with
  | scalar kind => exact readScalar_curbed h.config kind
  | struct name => exact (h.nested name).map _

theorem rounds_curbed {body body' : Frame → Reading Flow}
    (h : ∀ f, Curbed Fault.IsLimit (body f) (body' f)) (n : Nat) (f : Frame) :
    Curbed Fault.IsLimit (rounds body n f) (rounds body' n f) := by
  induction n generalizing f with
  | zero => exact .refl _
  | succ n ih =>
    refine (h f).bind fun flow => ?_
    cases flow with
    | next f => exact ih f
    | leave f => exact .refl _
    | finished v => exact .refl _

theorem roundsUntilLeft_curbed {body body' : Frame → Reading Flow}
    (h : ∀ f, Curbed Fault.IsLimit (body f) (body' f)) (n : Nat) (f : Frame) :
    Curbed Fault.IsLimit (roundsUntilLeft body n f) (roundsUntilLeft body' n f) := by
  induction n generalizing f with
  | zero => exact .refl _
  | succ n ih =>
    refine (h f).bind fun flow => ?_
    cases flow with
    | next f => exact ih f
    | leave f => exact .refl _
    | finished v => exact .refl _

-- Statements, blocks and cases are nested in each other, and so are these three. All statements
-- that look at no limit are the same reading on both sides.
mutual

theorem decodeStmt_curbed {s wider : Surroundings} (h : s.Narrows wider) (stmt : Stmt) (f : Frame) :
    Curbed Fault.IsLimit (decodeStmt s stmt f) (decodeStmt wider stmt f) := by
  cases stmt with
  | readContainerBegin kind metadata =>
    exact (readSize_curbed h.config kind).bind fun n => .refl _
  | read codec dest => exact (readValue_curbed h codec).bind fun v => .refl _
  | skip header =>
    refine (Curbed.refl (headerOf f header)).bind fun found => ?_
    exact (Reading.skip_curbed_of_narrows h.config found.type).bind fun _ => .refl _
  | loop body =>
    intro unread
    exact roundsUntilLeft_curbed (decodeBlock_curbed h body) (roundLimit body unread) f unread
  | «switch» header cases default =>
    refine (Curbed.refl (headerOf f header)).bind fun found => ?_
    have hcase := decodeCase_curbed h found.id cases f
    generalize decodeCase s found.id cases f = run at hcase
    generalize decodeCase wider found.id cases f = run' at hcase
    cases hcase with
    | none => exact decodeBlock_curbed h default f
    | some hrun => exact hrun
  | ifWireType header expected matching otherwise =>
    refine (Curbed.refl (headerOf f header)).bind fun found => ?_
    split
    · exact decodeBlock_curbed h matching f
    · exact decodeBlock_curbed h otherwise f
  | repeated metadata counter body =>
    refine (Curbed.refl (sizeOf f metadata)).bind fun n => ?_
    exact rounds_curbed (decodeBlock_curbed h body) n f
  | _ => exact .refl _

theorem decodeBlock_curbed {s wider : Surroundings} (h : s.Narrows wider) (code : List Stmt)
    (f : Frame) : Curbed Fault.IsLimit (decodeBlock s code f) (decodeBlock wider code f) := by
  cases code with
  | nil => exact .refl _
  | cons stmt stmts =>
    refine (decodeStmt_curbed h stmt f).bind fun flow => ?_
    cases flow with
    | next f => exact decodeBlock_curbed h stmts f
    | leave f => exact .refl _
    | finished v => exact .refl _

theorem decodeCase_curbed {s wider : Surroundings} (h : s.Narrows wider) (id : Int16)
    (cases : List (Int16 × List Stmt)) (f : Frame) :
    Option.Rel (Curbed Fault.IsLimit) (decodeCase s id cases f) (decodeCase wider id cases f) := by
  cases cases with
  | nil => exact .none
  | cons case cases =>
    obtain ⟨n, body⟩ := case
    rw [decodeCase, decodeCase]
    split
    · exact .some (decodeBlock_curbed h body f)
    · exact decodeCase_curbed h id cases f

end

theorem runDecode_curbed {s wider : Surroundings} (h : s.Narrows wider) (codec : StructCodec) :
    Curbed Fault.IsLimit (runDecode s codec) (runDecode wider codec) :=
  (decodeBlock_curbed h codec.decode Frame.empty).bind fun _ => .refl _

/-- The induction is on how deep structs may be nested under the narrower limits. -/
theorem decodeWithin_curbed (h : c.Narrows wider) (d : Compiled) {levels levels' : Nat}
    (hl : levels ≤ levels') (name : String) :
    Curbed Fault.IsLimit (decodeWithin d c levels name) (decodeWithin d wider levels' name) := by
  induction levels generalizing levels' name with
  | zero => exact .fail (.inr rfl) _
  | succ levels ih =>
    obtain ⟨levels', rfl⟩ : ∃ n, levels' = n + 1 := ⟨levels' - 1, by omega⟩
    rw [decodeWithin, decodeWithin]
    rcases d.struct? name with _ | codec
    · exact .refl _
    · exact runDecode_curbed ⟨h, ih (by omega)⟩ codec

end Machine

/-! ## All of it -/

/-- Limits turn outcomes into faults that tell of limits, and nothing else. This holds of every
struct of every document, whatever its procedures are, of values that are passed over and of message
headers. -/
theorem WireConfig.Narrows.only_limits (h : c.Narrows wider) :
    (∀ (d : Compiled) (name : String),
        Narrowed (Machine.decode d c name) (Machine.decode d wider name)) ∧
      (∀ type : WireType, Narrowed (Reading.skip c type) (Reading.skip wider type)) ∧
      Narrowed (MessageHeader.read c) (MessageHeader.read wider) := by
  refine ⟨fun d name => ?_, fun type => ?_, ?_⟩
  · exact (Machine.decodeWithin_curbed h d h.depth_le name).narrowed
  · exact (Reading.skip_curbed_of_narrows h type).narrowed
  · exact (MessageHeader.read_curbed h).narrowed

/-- A shelf with a label and one size, and a byte behind it. -/
def Document.sizedShelfInput : Bytes :=
  [11, 0, 1, 0, 0, 0, 1, 0x61, 15, 0, 2, 8, 0, 0, 0, 1, 0, 0, 0, 5, 0, 9]

/-- Limits that just suffice for a shelf give what wider ones give; where no element is allowed, the
list of sizes tells of the limit. -/
theorem WireConfig.Narrows.only_limits_shelf : ∃ v left,
    ({ maxStringSize := 1, maxContainerSize := 1, maxDepth := 1 } : WireConfig).Narrows {} ∧
    Machine.decode Document.shelfCodecs { maxStringSize := 1, maxContainerSize := 1, maxDepth := 1 }
      "Shelf" Document.sizedShelfInput = .ok v [9] ∧
    Machine.decode Document.shelfCodecs {} "Shelf" Document.sizedShelfInput = .ok v [9] ∧
    ({ maxContainerSize := 0 } : WireConfig).Narrows {} ∧
    Machine.decode Document.shelfCodecs { maxContainerSize := 0 } "Shelf"
      Document.sizedShelfInput = .error (.protocol (.sizeLimit .list 1 0)) left ∧
    (Fault.protocol (.sizeLimit .list 1 0)).IsLimit := by
  have hsuffices : ({ maxStringSize := 1, maxContainerSize := 1, maxDepth := 1 } :
      WireConfig).Narrows {} := ⟨rfl, by decide, by decide, by decide⟩
  have hnone : ({ maxContainerSize := 0 } : WireConfig).Narrows {} :=
    ⟨rfl, by decide, by decide, by decide⟩
  obtain ⟨hdecode, -, -⟩ := only_limits hsuffices
  have hkept := (hdecode Document.shelfCodecs "Shelf").kept Document.sizedShelfInput _ [9] rfl
  refine ⟨_, _, hsuffices, rfl, hkept, hnone, rfl, ?_⟩
  obtain ⟨hstopped, -, -⟩ := only_limits hnone
  rcases (hstopped Document.shelfCodecs "Shelf").curbed Document.sizedShelfInput with
    heq | ⟨e, left, hlimit, hstop⟩
  · cases hkept.symm.trans heq.symm
  · cases hstop
    exact hlimit

end Thrift
