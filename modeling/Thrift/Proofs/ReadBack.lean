-- Reading what was written, whatever follows it: numbers, sizes, texts, tags and headers.
import Thrift.Proofs.Payload
import Thrift.Proofs.Reading

namespace Thrift

namespace BigEndian

theorem length_bytes (width n : Nat) : (bytes width n).length = width := by
  induction width with
  | zero => rfl
  | succ width ih => rw [bytes, List.length_cons, ih]

theorem foldl_bytes (width n acc : Nat) :
    (bytes width n).foldl (fun n b => n * 256 + b.toNat) acc =
      acc * Nat.pow 256 width + n % Nat.pow 256 width := by
  induction width generalizing acc with
  | zero => simp [bytes, Nat.mod_one]
  | succ width ih =>
    have hdigit : (UInt8.ofNat (n / Nat.pow 256 width)).toNat = n / Nat.pow 256 width % 256 := by
      rw [UInt8.toNat_ofNat']
    have hsplit : n % Nat.pow 256 (width + 1) =
        n % Nat.pow 256 width + Nat.pow 256 width * (n / Nat.pow 256 width % 256) :=
      Nat.mod_mul
    have hpow : Nat.pow 256 (width + 1) = Nat.pow 256 width * 256 := rfl
    rw [bytes, List.foldl_cons, ih, hdigit, hsplit, hpow, Nat.add_mul, Nat.mul_assoc,
      Nat.mul_comm 256, Nat.mul_comm (n / _ % 256), Nat.add_assoc,
      Nat.add_comm (n % Nat.pow 256 width)]

/-- A number is read back from its bytes when there are enough of them. -/
theorem value_bytes {width n : Nat} (h : n < Nat.pow 256 width) : value (bytes width n) = n := by
  rw [value, foldl_bytes, Nat.zero_mul, Nat.zero_add, Nat.mod_eq_of_lt h]

end BigEndian

theorem Text.ofBytes_toBytes (s : String) : Text.ofBytes (Text.toBytes s) = .ok s := by
  have hbytes : (⟨(toBytes s).toArray⟩ : ByteArray) = s.toUTF8 := by
    rw [toBytes, Array.toArray_toList]
  have hread : String.fromUTF8? ⟨(toBytes s).toArray⟩ = some s := by
    rw [hbytes]
    exact dif_pos s.isValidUTF8
  rw [ofBytes, hread]

namespace Reading

variable {α β : Type}

/-- The bytes are read as the value, and what follows them is left. -/
def Reads (m : Reading α) (bs : Bytes) (a : α) : Prop := ∀ rest, m (bs ++ rest) = .ok a rest

namespace Reads

theorem pure (a : α) : Reads (Pure.pure a) [] a := fun _ => rfl

theorem bind {m : Reading α} {f : α → Reading β} {bs cs : Bytes} {a : α} {b : β}
    (hm : Reads m bs a) (hf : Reads (f a) cs b) : Reads (m >>= f) (bs ++ cs) b := by
  intro rest
  rw [List.append_assoc, Steps.bind_ok (hm (cs ++ rest))]
  exact hf rest

theorem map {m : Reading α} {bs : Bytes} {a : α} (hm : Reads m bs a) (f : α → β) :
    Reads (f <$> m) bs (f a) := fun rest => Steps.map_ok (hm rest) f

end Reads

/-! ## Scalars -/

theorem take_reads (bs : Bytes) : Reads (take bs.length) bs bs :=
  fun _ => take_eq_ok_iff.mpr ⟨rfl, rfl⟩

theorem natural_reads (width : Nat) {n : Nat} (h : n < Nat.pow 256 width) :
    Reads (natural width) (BigEndian.bytes width n) n := by
  have htake := (take_reads (BigEndian.bytes width n)).map BigEndian.value
  rw [BigEndian.length_bytes, BigEndian.value_bytes h] at htake
  exact htake

theorem byte_reads (v : Int8) : Reads byte (BigEndian.bytes 1 v.toUInt8.toNat) v := by
  have h := (natural_reads 1 v.toUInt8.toNat_lt).map fun n => (UInt8.ofNat n).toInt8
  rw [UInt8.ofNat_toNat, Int8.toInt8_toUInt8] at h
  exact h

theorem bool_reads (b : Bool) : Reads bool [if b then 1 else 0] b := by
  have h := (byte_reads (if b then 1 else 0)).map (· != 0)
  cases b <;> exact h

theorem i16_reads (v : Int16) : Reads i16 (BigEndian.bytes 2 v.toUInt16.toNat) v := by
  have h := (natural_reads 2 v.toUInt16.toNat_lt).map
    fun n => (UInt16.ofNat n).toInt16
  rw [UInt16.ofNat_toNat, Int16.toInt16_toUInt16] at h
  exact h

theorem i32_reads (v : Int32) : Reads i32 (BigEndian.bytes 4 v.toUInt32.toNat) v := by
  have h := (natural_reads 4 v.toUInt32.toNat_lt).map
    fun n => (UInt32.ofNat n).toInt32
  rw [UInt32.ofNat_toNat, Int32.toInt32_toUInt32] at h
  exact h

theorem i64_reads (v : Int64) : Reads i64 (BigEndian.bytes 8 v.toUInt64.toNat) v := by
  have h := (natural_reads 8 v.toUInt64.toNat_lt).map
    fun n => (UInt64.ofNat n).toInt64
  rw [UInt64.ofNat_toNat, Int64.toInt64_toUInt64] at h
  exact h

theorem double_reads (v : Double) : Reads double (BigEndian.bytes 8 v.bits.toNat) v := by
  have h := (natural_reads 8 v.bits.toNat_lt).map
    fun n => (⟨UInt64.ofNat n⟩ : Double)
  rw [UInt64.ofNat_toNat] at h
  exact h

/-! ## Sizes and blocks -/

theorem toInt_ofNat_size {n : Nat} (h : n < sizeBound) : (Int32.ofNat n).toInt = n :=
  Int32.toInt_ofNat_of_lt h

/-- A size is no negative number. -/
theorem not_ofNat_size_neg {n : Nat} (h : n < sizeBound) : ¬ Int32.ofNat n < 0 := by
  rw [Int32.lt_iff_toInt_lt, toInt_ofNat_size h]
  exact Int.not_lt.mpr (Int.natCast_nonneg n)

theorem sizeBytes_reads {n : Nat} (h : n < sizeBound) :
    Reads i32 (sizeBytes n) (Int32.ofNat n) := by
  rw [← bytes_ofNat h]
  exact i32_reads _

theorem size_reads {what : Sized} {limit n : Nat} (h : n < sizeBound) (hl : n ≤ limit) :
    Reads (size what limit) (sizeBytes n) n := by
  intro rest
  rw [size_eq, Steps.bind_ok (sizeBytes_reads h rest), if_neg (not_ofNat_size_neg h),
    toInt_ofNat_size h, Int.toNat_natCast, if_neg (Nat.not_lt.mpr hl)]
  rfl

theorem binary_reads {c : WireConfig} {bs : Bytes} (h : bs.length < sizeBound)
    (hl : bs.length ≤ c.maxStringSize) : Reads (binary c) (sizeBytes bs.length ++ bs) bs :=
  (size_reads h hl).bind (take_reads bs)

theorem string_reads {c : WireConfig} {s : String} (h : (Text.toBytes s).length < sizeBound)
    (hl : (Text.toBytes s).length ≤ c.maxStringSize) :
    Reads (string c) (sizeBytes (Text.toBytes s).length ++ Text.toBytes s) s := by
  intro rest
  rw [string, Steps.bind_ok (binary_reads h hl rest), Text.ofBytes_toBytes]
  rfl

/-! ## Tags and headers -/

theorem wireType_reads (t : WireType) : Reads wireType [t.code] t := by
  intro rest
  cases t <;> rfl

theorem wireType_bind_reads {t : WireType} {f : WireType → Reading β} {bs : Bytes} {b : β}
    (h : Reads (f t) bs b) : Reads (wireType >>= f) (t.code :: bs) b := (wireType_reads t).bind h

theorem fieldHeader_reads {t : WireType} (h : t ≠ .stop) (id : Int16) :
    Reads fieldHeader (t.code :: BigEndian.bytes 2 id.toUInt16.toNat) ⟨t, id⟩ := by
  rw [fieldHeader_eq]
  refine wireType_bind_reads ?_
  rw [if_neg h]
  exact (i16_reads id).map _

theorem fieldStop_reads : Reads fieldHeader [WireType.stop.code] ⟨.stop, 0⟩ := fun _ => rfl

theorem listHeader_reads {c : WireConfig} (t : WireType) {n : Nat} (h : n < sizeBound)
    (hl : n ≤ c.maxContainerSize) : Reads (listHeader c) (t.code :: sizeBytes n) ⟨t, n⟩ :=
  wireType_bind_reads ((size_reads h hl).map _)

theorem setHeader_reads {c : WireConfig} (t : WireType) {n : Nat} (h : n < sizeBound)
    (hl : n ≤ c.maxContainerSize) : Reads (setHeader c) (t.code :: sizeBytes n) ⟨t, n⟩ :=
  wireType_bind_reads ((size_reads h hl).map _)

theorem mapHeader_reads {c : WireConfig} (k t : WireType) {n : Nat} (h : n < sizeBound)
    (hl : n ≤ c.maxContainerSize) :
    Reads (mapHeader c) (k.code :: t.code :: sizeBytes n) ⟨k, t, n⟩ :=
  wireType_bind_reads (wireType_bind_reads ((size_reads h hl).map _))

end Reading

end Thrift
