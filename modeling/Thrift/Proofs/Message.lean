-- Headers of messages and application exceptions on the wire: the bytes that they have, when they
-- can be written, and that they are read back.
import Thrift.Proofs.Conformance
import Thrift.Proofs.ReadBack
import Thrift.Wire.Message

namespace Thrift

/-! ## Texts -/

namespace Text

/-- The text has a size that can be sent. -/
def Short (s : String) : Prop := (toBytes s).length < sizeBound

instance (s : String) : Decidable (Short s) := Nat.decLt _ _

/-- The bytes of a text behind their number. -/
def sentBytes (s : String) : Bytes := sizeBytes (toBytes s).length ++ toBytes s

theorem toBytes_of_ofBytes {bs : Bytes} {s : String} (h : ofBytes bs = .ok s) : toBytes s = bs := by
  unfold ofBytes at h
  split at h
  · rename_i hread
    cases h
    unfold String.fromUTF8? at hread
    split at hread
    · cases hread
      exact List.toList_toArray
    · cases hread
  · cases h

end Text

theorem Writing.string_succeeds_iff {s : String} : (string s).Succeeds ↔ Text.Short s :=
  binary_succeeds_iff

theorem Writing.string_bytes {s : String} (h : Text.Short s) :
    (string s).bytes = Text.sentBytes s := binary_bytes (binary_succeeds_iff.mpr h)

theorem Int32.toNat_toInt_lt (n : Int32) : n.toInt.toNat < sizeBound := by
  have hlt := n.toInt_lt
  rw [sizeBound]
  omega

/-! ## Sizes that were read -/

namespace Reading

theorem size_gives (what : Sized) (limit : Nat) : Gives (· < sizeBound) (size what limit) := by
  rw [size_eq]
  refine (Gives.any i32).bind fun n _ => ?_
  split
  · exact .throw _
  · split
    · exact .throw _
    · exact .pure (Int32.toNat_toInt_lt n)

theorem take_gives (n : Nat) : Gives (·.length = n) (take n) :=
  fun _ _ _ h => (take_eq_ok_iff.mp h).1

/-- A block that was read can be sent again. -/
theorem binary_gives (c : WireConfig) : Gives (·.length < sizeBound) (binary c) := by
  refine (size_gives .string c.maxStringSize).bind fun n hn => ?_
  exact (take_gives n).imp fun bs hbs => hbs ▸ hn

theorem ofBytes_gives {bs : Bytes} (hbs : bs.length < sizeBound)
    (refused : Text.Utf8Fault → ProtocolFault) :
    Gives Text.Short (match Text.ofBytes bs with
      | .ok s => pure s
      | .error fault => fail (refused fault)) := by
  rcases hs : Text.ofBytes bs with fault | s
  · exact .throw _
  · apply Gives.pure
    rw [Text.Short, Text.toBytes_of_ofBytes hs]
    exact hbs

/-- A text that was read can be sent again. -/
theorem string_gives (c : WireConfig) : Gives Text.Short (string c) :=
  (binary_gives c).bind fun _ hbs => ofBytes_gives hbs _

end Reading

/-! ## Headers -/

namespace MessageHeader

/-- The bytes of a header, with a version word or without. -/
def bytes (strict : Bool) (h : MessageHeader) : Bytes :=
  (if strict then [0x80, 0x01, 0x00, h.type.code] ++ Text.sentBytes h.name
    else Text.sentBytes h.name ++ [h.type.code]) ++
    BigEndian.bytes 4 h.sequenceId.toUInt32.toNat

theorem version_bytes (t : MessageType) :
    (Writing.i32 (version ||| t.code.toUInt32).toInt32).bytes = [0x80, 0x01, 0x00, t.code] := by
  cases t <;> rfl

theorem write_eq (c : WireConfig) (h : MessageHeader) : write c h =
    (if c.strictWrite then
      (Writing.i32 (version ||| h.type.code.toUInt32).toInt32 >>= fun _ => Writing.string h.name)
    else Writing.string h.name >>= fun _ => Writing.put [h.type.code]) >>= fun _ =>
      Writing.i32 h.sequenceId := by
  unfold write
  split
  · rw [bind_assoc]
  · rw [bind_assoc]

/-- A header can be written when its name is short enough. -/
theorem write_succeeds_iff {c : WireConfig} {h : MessageHeader} :
    (write c h).Succeeds ↔ Text.Short h.name := by
  rw [write_eq, Writing.succeeds_bind_iff]
  split
  · rw [Writing.succeeds_bind_iff, Writing.string_succeeds_iff]
    exact ⟨fun hw => hw.1.2, fun hname => ⟨⟨rfl, hname⟩, rfl⟩⟩
  · rw [Writing.succeeds_bind_iff, Writing.string_succeeds_iff]
    exact ⟨fun hw => hw.1.1, fun hname => ⟨⟨hname, rfl⟩, rfl⟩⟩

theorem write_bytes {c : WireConfig} {h : MessageHeader} (hname : Text.Short h.name) :
    (write c h).bytes = h.bytes c.strictWrite := by
  have hstring := Writing.string_succeeds_iff.mpr hname
  rw [write_eq, bytes]
  rcases c.strictWrite with _ | _
  · rw [if_neg Bool.false_ne_true, if_neg Bool.false_ne_true, bind_assoc,
      Writing.bytes_bind hstring, Writing.string_bytes hname, List.append_assoc]
    rfl
  · have hversion : (Writing.i32 (version ||| h.type.code.toUInt32).toInt32).Succeeds := rfl
    rw [if_pos rfl, if_pos rfl, bind_assoc, Writing.bytes_bind hversion, version_bytes,
      Writing.bytes_bind hstring, Writing.string_bytes hname, List.append_assoc]
    rfl

/-- The name in the bytes of a header without a version word. -/
def nameIn (bs : Bytes) : Reading String :=
  match Text.ofBytes bs with
  | .ok name => pure name
  | .error fault => Reading.fail (.invalidMessageName fault)

theorem readVersioned_eq (c : WireConfig) (word : UInt32) : readVersioned c word =
    if word &&& versionMask ≠ version then Reading.fail (.badVersion word)
    else readType word.toUInt8 >>= fun type => Reading.string c >>= fun name =>
      (fun id => ⟨name, type, id⟩) <$> Reading.i32 := by
  unfold readVersioned
  split
  · rfl
  · rfl

theorem readPlain_eq (c : WireConfig) (size : Nat) : readPlain c size =
    if c.strictRead then Reading.fail .missingVersion
    else if c.maxStringSize < size then Reading.fail (.nameSizeLimit size)
    else Reading.take size >>= fun bs => nameIn bs >>= fun name => Reading.byte >>= fun code =>
      readType code.toUInt8 >>= fun type => (fun id => ⟨name, type, id⟩) <$> Reading.i32 := by
  unfold readPlain
  split
  · rfl
  · split
    · rfl
    · refine congrArg (Reading.take size >>= ·) (funext fun bs => ?_)
      rw [nameIn]
      rcases Text.ofBytes bs with fault | name <;> rfl

theorem readVersioned_gives (c : WireConfig) (word : UInt32) :
    Reading.Gives (Text.Short ·.name) (readVersioned c word) := by
  rw [readVersioned_eq]
  split
  · exact .throw _
  · refine (Reading.Gives.any _).bind fun type _ => ?_
    refine (Reading.string_gives c).bind fun name hname => ?_
    exact (Reading.Gives.any _).map fun _ _ => hname

theorem readPlain_gives (c : WireConfig) {size : Nat} (h : size < sizeBound) :
    Reading.Gives (Text.Short ·.name) (readPlain c size) := by
  rw [readPlain_eq]
  split
  · exact .throw _
  · split
    · exact .throw _
    · refine (Reading.take_gives size).bind fun bs hbs => ?_
      refine (Reading.ofBytes_gives (hbs ▸ h) _).bind fun name hname => ?_
      refine (Reading.Gives.any _).bind fun code _ => (Reading.Gives.any _).bind fun type _ => ?_
      exact (Reading.Gives.any _).map fun _ _ => hname

/-- A header that was read can be written again. -/
theorem read_short {c : WireConfig} {h : MessageHeader} {unread rest : Bytes}
    (hread : read c unread = .ok h rest) : Text.Short h.name := by
  have hgives : Reading.Gives (Text.Short ·.name) (read c) := by
    refine (Reading.Gives.any Reading.i32).bind fun first _ => ?_
    split
    · exact readVersioned_gives c _
    · exact readPlain_gives c (Int32.toNat_toInt_lt first)
  exact hgives unread h rest hread

open Reading (Reads)

theorem readType_eq (t : MessageType) : readType t.code = pure t := by
  cases t <;> rfl

/-- The first number of a header with a version word. -/
theorem version_reads (t : MessageType) :
    Reads Reading.i32 [0x80, 0x01, 0x00, t.code] (version ||| t.code.toUInt32).toInt32 := by
  rw [← version_bytes]
  exact Reading.i32_reads _

theorem readVersioned_version (c : WireConfig) (t : MessageType) :
    readVersioned c (version ||| t.code.toUInt32) = Reading.string c >>= fun name =>
      (fun id => ⟨name, t, id⟩) <$> Reading.i32 := by
  have htype : (version ||| t.code.toUInt32).toUInt8 = t.code := by cases t <;> rfl
  have hversion : ¬ (version ||| t.code.toUInt32) &&& versionMask ≠ version := by
    cases t <;> decide
  rw [readVersioned_eq, if_neg hversion, htype, readType_eq, pure_bind]

theorem type_reads (t : MessageType) :
    Reads (Reading.byte >>= fun code => readType code.toUInt8) [t.code] t := by
  have hbyte := Reading.byte_reads t.code.toInt8
  have hcode : BigEndian.bytes 1 t.code.toInt8.toUInt8.toNat = [t.code] := by cases t <;> rfl
  have htype : Reads (readType t.code.toInt8.toUInt8) [] t := by
    rw [UInt8.toUInt8_toInt8, readType_eq]
    exact .pure t
  rw [hcode] at hbyte
  exact hbyte.bind htype

/-- The number that a header starts with. -/
def first (strict : Bool) (h : MessageHeader) : Int32 :=
  if strict then (version ||| h.type.code.toUInt32).toInt32
  else Int32.ofNat (Text.toBytes h.name).length

/-- The bytes of a header after its first number. -/
def body (strict : Bool) (h : MessageHeader) : Bytes :=
  (if strict then Text.sentBytes h.name else Text.toBytes h.name ++ [h.type.code]) ++
    BigEndian.bytes 4 h.sequenceId.toUInt32.toNat

variable {h : MessageHeader}

/-- The sign of the first number tells the forms apart. -/
theorem first_neg_iff (hname : Text.Short h.name) (strict : Bool) :
    h.first strict < 0 ↔ strict = true := by
  cases strict with
  | false => exact iff_of_false (Reading.not_ofNat_size_neg hname) Bool.false_ne_true
  | true =>
    have hversion : (version ||| h.type.code.toUInt32).toInt32 < 0 := by
      cases h.type <;> decide
    exact iff_of_true hversion rfl

/-- After the first number of a header comes the rest of it. -/
theorem first_reads (hname : Text.Short h.name) (strict : Bool) (rest : Bytes) :
    Reading.i32 (h.bytes strict ++ rest) = .ok (h.first strict) (h.body strict ++ rest) := by
  cases strict with
  | false =>
    have hbytes : h.bytes false = sizeBytes (Text.toBytes h.name).length ++ h.body false := by
      simp [bytes, body, Text.sentBytes]
    rw [hbytes, List.append_assoc]
    exact Reading.sizeBytes_reads hname _
  | true =>
    rw [show h.bytes true = [0x80, 0x01, 0x00, h.type.code] ++ h.body true from rfl,
      List.append_assoc]
    exact version_reads h.type _

/-- Whatever a reader asks for, it reads a header in the form in which it was written. -/
theorem read_bytes (hname : Text.Short h.name) (c : WireConfig) (strict : Bool) (rest : Bytes) :
    read c (h.bytes strict ++ rest) =
      (if strict then readVersioned c (version ||| h.type.code.toUInt32)
        else readPlain c (Text.toBytes h.name).length) (h.body strict ++ rest) := by
  have hsplit : read c (h.bytes strict ++ rest) =
      (if h.first strict < 0 then readVersioned c (h.first strict).toUInt32
        else readPlain c (h.first strict).toInt.toNat) (h.body strict ++ rest) := by
    rw [read, Steps.bind_ok (first_reads hname strict rest)]
  rw [hsplit, if_congr (first_neg_iff hname strict) rfl rfl]
  cases strict with
  | false => rw [first, if_neg Bool.false_ne_true, if_neg Bool.false_ne_true,
      if_neg Bool.false_ne_true, Reading.toInt_ofNat_size hname, Int.toNat_natCast]
  | true => rw [first, if_pos rfl, if_pos rfl, if_pos rfl, UInt32.toUInt32_toInt32]

/-- A header is read as it was written, unless it has no version word and one is asked for. -/
theorem read_reads {c : WireConfig} {strict : Bool} (hname : Text.Short h.name)
    (hlimit : (Text.toBytes h.name).length ≤ c.maxStringSize) (hstrict : c.strictRead → strict) :
    Reads (read c) (h.bytes strict) h := by
  intro rest
  have hid := Reading.i32_reads h.sequenceId
  rw [read_bytes hname]
  revert rest
  cases strict with
  | false =>
    have hplain : ¬ c.strictRead = true := fun hc => absurd (hstrict hc) Bool.false_ne_true
    rw [if_neg Bool.false_ne_true, body, if_neg Bool.false_ne_true, readPlain_eq, if_neg hplain,
      if_neg (Nat.not_lt.mpr hlimit), List.append_assoc]
    refine (Reading.take_reads _).bind ?_
    rw [nameIn, Text.ofBytes_toBytes, pure_bind]
    simp only [← bind_assoc]
    exact (type_reads h.type).bind (hid.map _)
  | true =>
    rw [if_pos rfl, body, if_pos rfl, readVersioned_version]
    exact (Reading.string_reads hname hlimit).bind (hid.map _)

/-- A header without a version word is refused where one is asked for. -/
theorem read_refuses {c : WireConfig} (hname : Text.Short h.name) (hstrict : c.strictRead = true)
    (rest : Bytes) :
    read c (h.bytes false ++ rest) = .error (.protocol .missingVersion) (h.body false ++ rest) := by
  rw [read_bytes hname, if_neg Bool.false_ne_true, readPlain_eq, if_pos hstrict]
  rfl

/-- What starts with a header starts with no other, whatever their forms are. -/
theorem bytes_append_inj {h' : MessageHeader} (hname : Text.Short h.name)
    (hname' : Text.Short h'.name) {strict strict' : Bool} {rest rest' : Bytes}
    (heq : h.bytes strict ++ rest = h'.bytes strict' ++ rest') :
    strict = strict' ∧ h = h' ∧ rest = rest' := by
  have hfirst := first_reads hname strict rest
  rw [heq, first_reads hname' strict' rest'] at hfirst
  have hforms : strict' = true ↔ strict = true := by
    rw [← first_neg_iff hname', ← first_neg_iff hname, (EStateM.Result.ok.inj hfirst).1]
  -- A reader that asks for no version word and has room for both names tells the headers apart.
  let c : WireConfig :=
    { maxStringSize := max (Text.toBytes h.name).length (Text.toBytes h'.name).length }
  have hfree (b : Bool) : c.strictRead = true → b = true := nofun
  have hread := read_reads hname (Nat.le_max_left _ _) (hfree strict) rest
  rw [heq, read_reads hname' (Nat.le_max_right _ _) (hfree strict') rest'] at hread
  obtain ⟨rfl, rfl⟩ := EStateM.Result.ok.inj hread
  exact ⟨Bool.eq_iff_iff.mpr hforms.symm, rfl, rfl⟩

/-- Every header that can be sent comes back from its bytes, in either form, and nothing more is
read. Only a reader that asks for a version word refuses the form without one. The forms are never
taken for each other. -/
theorem read_written (writer reader : WireConfig) (hname : Text.Short h.name) (rest : Bytes) :
    (write writer h).Succeeds ∧
    ((reader.strictRead → writer.strictWrite) →
      (Text.toBytes h.name).length ≤ reader.maxStringSize →
        read reader ((write writer h).bytes ++ rest) = .ok h rest) ∧
    (reader.strictRead → ¬ writer.strictWrite →
      ∃ cause left, read reader ((write writer h).bytes ++ rest) = .error (.protocol cause) left ∧
        cause.kind = .badVersion) ∧
    read reader ((write writer h).bytes ++ rest) =
      (if writer.strictWrite then readVersioned reader (version ||| h.type.code.toUInt32)
        else readPlain reader (Text.toBytes h.name).length) (h.body writer.strictWrite ++ rest) ∧
    ∀ (other : WireConfig) (h' : MessageHeader) (rest' : Bytes), Text.Short h'.name →
      (write writer h).bytes ++ rest = (write other h').bytes ++ rest' →
        writer.strictWrite = other.strictWrite ∧ h = h' ∧ rest = rest' := by
  rw [write_bytes hname]
  refine ⟨write_succeeds_iff.mpr hname, fun hstrict hlimit => read_reads hname hlimit hstrict rest,
    fun hreader hwriter => ?_, read_bytes hname reader _ rest, fun other h' rest' hname' heq => ?_⟩
  · rw [Bool.eq_false_iff.mpr hwriter]
    exact ⟨.missingVersion, _, read_refuses hname hreader rest, rfl⟩
  · rw [write_bytes hname'] at heq
    exact bytes_append_inj hname hname' heq

/-- A header with a negative number and a name beyond ASCII, in the form without a version word. -/
theorem read_written_plain :
    let h : MessageHeader := ⟨"grüße", .oneway, -7⟩
    let bytes := (write { strictWrite := false } h).bytes
    Text.Short h.name ∧ bytes ≠ (write {} h).bytes ∧ read {} (bytes ++ [1, 2]) = .ok h [1, 2] ∧
      ∃ cause left, read { strictRead := true } (bytes ++ [1, 2]) = .error (.protocol cause) left ∧
        cause.kind = .badVersion := by
  intro h bytes
  have hname : Text.Short h.name := by decide
  obtain ⟨-, hread, -, -, happart⟩ := read_written { strictWrite := false } {} hname [1, 2]
  obtain ⟨-, -, hrefused, -, -⟩ :=
    read_written { strictWrite := false } { strictRead := true } hname [1, 2]
  refine ⟨hname, fun heq => ?_, hread nofun (by decide), hrefused rfl Bool.false_ne_true⟩
  exact Bool.false_ne_true (happart {} h [1, 2] hname (congrArg (· ++ [1, 2]) heq)).1

end MessageHeader

/-! ## Laws -/

open Reading (Takes)

namespace Reading.Law

variable {P : ∀ {α : Type}, Reading α → Prop} (h : Law P)

include h

theorem messageType (code : UInt8) : P (MessageHeader.readType code) := by
  unfold MessageHeader.readType
  split
  · exact h.pure _
  · exact h.fail _

theorem messageName (bs : Bytes) : P (MessageHeader.nameIn bs) := by
  unfold MessageHeader.nameIn
  split
  · exact h.pure _
  · exact h.fail _

theorem messageHeader (c : WireConfig) : P (MessageHeader.read c) := by
  unfold MessageHeader.read
  apply h.bind h.i32
  intro first
  split
  · rw [MessageHeader.readVersioned_eq]
    split
    · exact h.fail _
    · exact h.bind (h.messageType _) fun type => h.bind (h.string c) fun name => h.map h.i32 _
  · rw [MessageHeader.readPlain_eq]
    split
    · exact h.fail _
    · split
      · exact h.fail _
      · exact h.bind (h.take _) fun bs => h.bind (h.messageName bs) fun name =>
          h.bind h.byte fun code => h.bind (h.messageType _) fun type => h.map h.i32 _

theorem exceptionField (c : WireConfig) (header : FieldHeader) (e : ApplicationException) :
    P (ApplicationException.readField c header e) := by
  unfold ApplicationException.readField
  split
  · exact h.map (h.string c) _
  · split
    · exact h.map h.i32 _
    · exact h.map (h.skip c header.type) _

theorem exception (c : WireConfig) : P (ApplicationException.read c) :=
  h.fieldLoop (Takes.law.exceptionField c) (h.exceptionField c) _

end Reading.Law

/-! ## Application exceptions -/

namespace ApplicationException

open Reading (Reads)

/-- The bytes of an exception: its text, the number of its kind, and a stop. -/
def bytes (e : ApplicationException) : Bytes :=
  [WireType.string.code, 0, 1] ++ Text.sentBytes e.message ++ [WireType.i32.code, 0, 2] ++
    BigEndian.bytes 4 e.kind.code.toUInt32.toNat ++ [WireType.stop.code]

/-- An exception can be written when its text is short enough. -/
theorem write_succeeds_iff {e : ApplicationException} :
    e.write.Succeeds ↔ Text.Short e.message := by
  unfold write
  rw [Writing.succeeds_bind_iff, Writing.succeeds_bind_iff, Writing.string_succeeds_iff]
  exact ⟨fun h => h.2.1, fun h => ⟨rfl, h, rfl⟩⟩

theorem write_bytes {e : ApplicationException} (h : Text.Short e.message) :
    e.write.bytes = e.bytes := by
  have hheader : (Writing.fieldHeader .string 1).Succeeds := rfl
  unfold write
  rw [Writing.bytes_bind hheader, Writing.bytes_bind (Writing.string_succeeds_iff.mpr h),
    Writing.string_bytes h, bytes, List.append_assoc, List.append_assoc, List.append_assoc]
  rfl

theorem readField_takes (c : WireConfig) (header : Reading.FieldHeader)
    (e : ApplicationException) : Takes (readField c header e) :=
  Takes.law.exceptionField c header e

theorem ofCode_code (kind : ExceptionKind) : ExceptionKind.ofCode kind.code = kind := by
  cases kind <;> rfl

/-- An exception is read as it was written. -/
theorem read_reads {c : WireConfig} {e : ApplicationException} (h : Text.Short e.message)
    (hlimit : (Text.toBytes e.message).length ≤ c.maxStringSize) :
    Reads (read c) e.bytes e := by
  have hmessage : Reads (readField c ⟨.string, 1⟩ ⟨.unknown, ""⟩) (Text.sentBytes e.message)
      ⟨.unknown, e.message⟩ := (Reading.string_reads h hlimit).map _
  have hkind : Reads (readField c ⟨.i32, 2⟩ ⟨.unknown, e.message⟩)
      (BigEndian.bytes 4 e.kind.code.toUInt32.toNat) e := by
    have hcode := (Reading.i32_reads e.kind.code).map fun code =>
      (⟨ExceptionKind.ofCode code, e.message⟩ : ApplicationException)
    rw [ofCode_code] at hcode
    exact hcode
  rw [read, bytes, List.append_assoc, List.append_assoc, List.append_assoc,
    Reading.fields_eq (readField_takes c)]
  refine (Reading.fieldHeader_reads (by decide) 1).bind ?_
  refine hmessage.bind ?_
  rw [Reading.fields_eq (readField_takes c)]
  refine (Reading.fieldHeader_reads (by decide) 2).bind ?_
  refine hkind.bind ?_
  rw [Reading.fields_eq (readField_takes c)]
  exact Reading.fieldStop_reads.bind (.pure e)

end ApplicationException

end Thrift
