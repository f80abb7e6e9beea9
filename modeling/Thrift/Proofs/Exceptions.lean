-- Application exceptions among fields that a reader does not know. A segment counts when it has the
-- id and the tag of the text or of the number of the kind, and the last one of each counts; all
-- others are passed over.
import Thrift.Proofs.Message
import Thrift.Proofs.Segments

namespace Thrift

theorem ExceptionKind.mem_all (kind : ExceptionKind) : kind ∈ all := by
  cases kind <;> decide

/-- A number with a kind of its own means this kind, and every other number the unknown one. -/
theorem ExceptionKind.ofCode_eq_iff {code : Int32} {kind : ExceptionKind} :
    ofCode code = kind ↔
      kind.code = code ∨ kind = .unknown ∧ ∀ other : ExceptionKind, other.code ≠ code := by
  constructor
  · intro h
    unfold ofCode at h
    rcases hfound : all.find? (·.code == code) with _ | found
    · rw [hfound] at h
      refine .inr ⟨h.symm, fun other hother => ?_⟩
      exact List.find?_eq_none.mp hfound other other.mem_all (beq_iff_eq.mpr hother)
    · rw [hfound] at h
      cases h
      exact .inl (beq_iff_eq.mp (List.find?_some hfound :))
  · rintro (rfl | ⟨rfl, hnone⟩)
    · exact ApplicationException.ofCode_code kind
    · rw [ofCode, List.find?_eq_none.mpr fun other _ hother => hnone other (beq_iff_eq.mp hother)]
      rfl

namespace ApplicationException

open Reading (Delimits Reads)

/-! ## Segments of an exception -/

/-- The header of the text. -/
def messageHeader : Reading.FieldHeader := ⟨.string, 1⟩

/-- The header of the number of the kind. -/
def kindHeader : Reading.FieldHeader := ⟨.i32, 2⟩

/-- What a segment holds by its header: a text within the limit, a number, or something that is
passed over as the tag tells. -/
def Fits (c : WireConfig) (g : Segment) : Prop :=
  if g.header = messageHeader then
    ∃ s, Text.Short s ∧ (Text.toBytes s).length ≤ c.maxStringSize ∧ g.payload = Text.sentBytes s
  else if g.header = kindHeader then
    ∃ n : Int32, g.payload = BigEndian.bytes 4 n.toUInt32.toNat
  else Reading.skip c g.header.type g.payload = .ok () []

/-- The text behind its size, in a segment that holds the text. -/
def messageIn (g : Segment) : Option String :=
  if g.header = messageHeader then (Text.ofBytes (g.payload.drop 4)).toOption else none

/-- The kind by its number, in a segment that holds the number. -/
def kindIn (g : Segment) : Option ExceptionKind :=
  if g.header = kindHeader then
    some (ExceptionKind.ofCode (UInt32.ofNat (BigEndian.value g.payload)).toInt32)
  else none

/-- The last text and the last kind, where there are such. -/
def lastIn (segments : List Segment) : ApplicationException :=
  ⟨(segments.filterMap kindIn).getLast?.getD .unknown,
    (segments.filterMap messageIn).getLast?.getD ""⟩

/-- An exception after one more segment. -/
def absorb (e : ApplicationException) (g : Segment) : ApplicationException :=
  ⟨(kindIn g).getD e.kind, (messageIn g).getD e.message⟩

variable {c : WireConfig} {g : Segment} {segments : List Segment}

theorem Fits.type_ne_stop (h : Fits c g) : g.header.type ≠ .stop := by
  unfold Fits at h
  split at h
  · rename_i hmessage
    rw [hmessage]
    decide
  · split at h
    · rename_i hkind
      rw [hkind]
      decide
    · intro hstop
      rw [hstop, Reading.skip] at h
      rcases hdepth : c.maxDepth with _ | depth <;> rw [hdepth] at h <;> cases h

theorem readField_eq (c : WireConfig) (header : Reading.FieldHeader) (e : ApplicationException) :
    readField c header e =
      if header = messageHeader then (fun s => ⟨e.kind, s⟩) <$> Reading.string c
      else if header = kindHeader then (fun n => ⟨ExceptionKind.ofCode n, e.message⟩) <$> Reading.i32
      else (fun _ => e) <$> Reading.skip c header.type := by
  obtain ⟨type, id⟩ := header
  have hmessage : id = 1 ∧ type = .string ↔ (⟨type, id⟩ : Reading.FieldHeader) = messageHeader := by
    rw [messageHeader, Reading.FieldHeader.mk.injEq]
    exact and_comm
  have hkind : id = 2 ∧ type = .i32 ↔ (⟨type, id⟩ : Reading.FieldHeader) = kindHeader := by
    rw [kindHeader, Reading.FieldHeader.mk.injEq]
    exact and_comm
  rw [readField, if_congr hmessage rfl (if_congr hkind rfl rfl)]
  rfl

theorem messageIn_of_payload {s : String} (hheader : g.header = messageHeader)
    (hpayload : g.payload = Text.sentBytes s) : messageIn g = some s := by
  have htext : (Text.sentBytes s).drop 4 = Text.toBytes s := rfl
  rw [messageIn, if_pos hheader, hpayload, htext, Text.ofBytes_toBytes]
  rfl

theorem kindIn_of_payload {n : Int32} (hheader : g.header = kindHeader)
    (hpayload : g.payload = BigEndian.bytes 4 n.toUInt32.toNat) :
    kindIn g = some (ExceptionKind.ofCode n) := by
  rw [kindIn, if_pos hheader, hpayload, BigEndian.value_bytes n.toUInt32.toNat_lt,
    UInt32.ofNat_toNat, Int32.toInt32_toUInt32]

theorem messageIn_of_ne (h : g.header ≠ messageHeader) : messageIn g = none := if_neg h

theorem kindIn_of_ne (h : g.header ≠ kindHeader) : kindIn g = none := if_neg h

/-- A segment that fits is read whole, and changes what it holds. -/
theorem readField_segment (h : Fits c g) (e : ApplicationException) :
    Reads (readField c g.header e) g.payload (absorb e g) := by
  rw [readField_eq, absorb]
  unfold Fits at h
  split at h
  · rename_i hheader
    obtain ⟨s, hshort, hlimit, hpayload⟩ := h
    have hother : g.header ≠ kindHeader := by
      rw [hheader]
      decide
    rw [if_pos hheader, kindIn_of_ne hother, messageIn_of_payload hheader hpayload, hpayload]
    exact (Reading.string_reads hshort hlimit).map _
  · rename_i hmessage
    rw [if_neg hmessage, messageIn_of_ne hmessage]
    split at h
    · rename_i hheader
      obtain ⟨n, hpayload⟩ := h
      rw [if_pos hheader, kindIn_of_payload hheader hpayload, hpayload]
      exact (Reading.i32_reads n).map _
    · rename_i hkind
      rw [if_neg hkind, kindIn_of_ne hkind]
      exact (Record.reads_of_delimits (Delimits.law.skip c g.header.type) h).map _

/-- Segments that fit are read one after the other. -/
theorem fields_segments (h : ∀ g ∈ segments, Fits c g) (e : ApplicationException) :
    Reads (Reading.fields (readField c) e) (Segment.stream segments) (segments.foldl absorb e) := by
  induction segments generalizing e with
  | nil =>
    rw [Reading.fields_eq (readField_takes c)]
    exact Reading.fieldStop_reads.bind (.pure e)
  | cons g segments ih =>
    obtain ⟨hg, hrest⟩ := List.forall_mem_cons.mp h
    rw [Segment.stream_cons, Reading.fields_eq (readField_takes c)]
    refine (Reading.fieldHeader_reads hg.type_ne_stop g.header.id).bind ?_
    rw [if_neg hg.type_ne_stop]
    exact (readField_segment hg e).bind (ih hrest _)

/-- The last of what segments hold, or of what was there before. -/
theorem last_cons {α : Type} (f : Segment → Option α) (g : Segment) (segments : List Segment)
    (a : α) : ((g :: segments).filterMap f).getLast?.getD a =
      (segments.filterMap f).getLast?.getD ((f g).getD a) := by
  rcases hg : f g with _ | b
  · rw [List.filterMap_cons_none hg]
    rfl
  · rw [List.filterMap_cons_some hg, List.getLast?_cons]
    rfl

/-- Of each part the last one stays. -/
theorem foldl_absorb (segments : List Segment) (e : ApplicationException) :
    segments.foldl absorb e = ⟨(segments.filterMap kindIn).getLast?.getD e.kind,
      (segments.filterMap messageIn).getLast?.getD e.message⟩ := by
  induction segments generalizing e with
  | nil => rfl
  | cons g segments ih =>
    rw [List.foldl_cons, ih, absorb]
    rw [last_cons, last_cons]

/-! ## Reading an exception -/

/-- A text that has no size on the wire is refused. -/
theorem write_refuses {e : ApplicationException} (h : ¬ Text.Short e.message) :
    e.write.outcome = .error (.protocol (.sizeOverflow (Text.toBytes e.message).length)) := by
  have hlong : ¬ (Text.toBytes e.message).length < 0x80000000 := h
  have hsize : Writing.string e.message =
      Writing.fail (.sizeOverflow (Text.toBytes e.message).length) := by
    rw [Writing.string, Writing.binary, Writing.size, if_neg hlong]
    rfl
  rw [write, hsize]
  rfl

/-- What an exception says is read back, whatever follows, and from any segments that fit the last
text and the last number count. -/
theorem read_last (c : WireConfig) :
    (∀ (e : ApplicationException) (rest : Bytes),
      (Text.toBytes e.message).length ≤ c.maxStringSize →
        if Text.Short e.message then
          e.write.Succeeds ∧ read c (e.write.bytes ++ rest) = .ok e rest
        else e.write.outcome =
          .error (.protocol (.sizeOverflow (Text.toBytes e.message).length))) ∧
    (∀ (segments : List Segment) (rest : Bytes), (∀ g ∈ segments, Fits c g) →
      read c (Segment.stream segments ++ rest) = .ok (lastIn segments) rest) ∧
    ∀ code kind, ExceptionKind.ofCode code = kind ↔
      kind.code = code ∨ kind = .unknown ∧ ∀ other : ExceptionKind, other.code ≠ code := by
  refine ⟨fun e rest hlimit => ?_, fun segments rest hfits => ?_,
    fun _ _ => ExceptionKind.ofCode_eq_iff⟩
  · split
    · rename_i hshort
      rw [write_bytes hshort]
      exact ⟨write_succeeds_iff.mpr hshort, read_reads hshort hlimit rest⟩
    · rename_i hlong
      exact write_refuses hlong
  · rw [read, fields_segments hfits, foldl_absorb, lastIn]

/-- Two texts, a number under the id of the text, a list of numbers that nobody knows, a number
without a kind, and a text under the id of the number. -/
def driftedSegments : List Segment :=
  [⟨messageHeader, [0, 0, 0, 1, 0x61]⟩, ⟨⟨.i32, 1⟩, [0, 0, 0, 7]⟩, ⟨kindHeader, [0, 0, 0, 6]⟩,
    ⟨⟨.list, -3⟩, [8, 0, 0, 0, 2, 0, 0, 0, 1, 0, 0, 0, 2]⟩, ⟨messageHeader, [0, 0, 0, 1, 0x62]⟩,
    ⟨kindHeader, [0, 0, 0, 99]⟩, ⟨⟨.string, 2⟩, [0, 0, 0, 0]⟩]

theorem read_last_drifted :
    (∀ g ∈ driftedSegments, Fits {} g) ∧ lastIn driftedSegments = ⟨.unknown, "b"⟩ ∧
      read {} (Segment.stream driftedSegments ++ [9]) = .ok ⟨.unknown, "b"⟩ [9] ∧
      (Text.toBytes "über").length ≤ ({} : WireConfig).maxStringSize ∧
      read {} ((write ⟨.missingResult, "über"⟩).bytes ++ [9]) = .ok ⟨.missingResult, "über"⟩ [9] := by
  have hfits : ∀ g ∈ driftedSegments, Fits {} g := by
    intro g hg
    simp only [driftedSegments, List.mem_cons, List.not_mem_nil, or_false] at hg
    rcases hg with rfl | rfl | rfl | rfl | rfl | rfl | rfl
    · exact ⟨"a", by decide, by decide, rfl⟩
    · exact rfl
    · exact ⟨6, rfl⟩
    · exact rfl
    · exact ⟨"b", by decide, by decide, rfl⟩
    · exact ⟨99, rfl⟩
    · exact rfl
  have hlast : lastIn driftedSegments = ⟨.unknown, "b"⟩ := rfl
  have hlimit : (Text.toBytes "über").length ≤ ({} : WireConfig).maxStringSize := by decide
  obtain ⟨hwritten, hsegments, -⟩ := read_last {}
  have hshort : Text.Short "über" := by decide
  have hread := hwritten ⟨.missingResult, "über"⟩ [9] hlimit
  rw [if_pos hshort] at hread
  exact ⟨hfits, hlast, hlast ▸ hsegments driftedSegments [9] hfits, hlimit, hread.2⟩

end ApplicationException

end Thrift
