-- The grammar of values on the wire, told by tags alone. Passing over a value takes exactly the
-- values of its tag that keep the limits; one that nests too deeply stops it at the depth.
import Thrift.Proofs.Limits
import Thrift.Proofs.Message

namespace Thrift

/-! ## The grammar -/

/-- The number of bytes of a value, where its tag alone tells it. -/
def WireType.width? : WireType → Option Nat
  | void => some 0
  | bool => some 1
  | byte => some 1
  | i16 => some 2
  | i32 => some 4
  | i64 => some 8
  | double => some 8
  | _ => none

/-- The size can be announced and is within the limit. -/
def SizeWithin (limit n : Nat) : Prop := n < sizeBound ∧ n ≤ limit

/-- A field as it stands on the wire: its tag, its id and the bytes of its value. -/
structure WireField where
  type : WireType
  id : Int16
  value : Bytes

def WireField.bytes (f : WireField) : Bytes :=
  f.type.code :: BigEndian.bytes 2 f.id.toUInt16.toNat ++ f.value

/-- The bytes are a value of the tag on a level of nesting, within the limits. The end of a struct
is no value, so no field and no element has its tag. -/
inductive WireValue (c : WireConfig) : Nat → WireType → Bytes → Prop
  | plain {level : Nat} {type : WireType} {bs : Bytes} (hlevel : level ≤ c.maxDepth)
      (hwidth : type.width? = some bs.length) : WireValue c level type bs
  | string {level : Nat} {bs : Bytes} (hlevel : level ≤ c.maxDepth)
      (hsize : SizeWithin c.maxStringSize bs.length) :
      WireValue c level .string (sizeBytes bs.length ++ bs)
  | struct {level : Nat} {fs : List WireField} (hlevel : level ≤ c.maxDepth)
      (hfields : ∀ f ∈ fs, WireValue c (level + 1) f.type f.value) :
      WireValue c level .struct (fs.flatMap WireField.bytes ++ [WireType.stop.code])
  | map {level : Nat} {key value : WireType} {entries : List (Bytes × Bytes)}
      (hlevel : level ≤ c.maxDepth) (hsize : SizeWithin c.maxContainerSize entries.length)
      (hkeys : ∀ e ∈ entries, WireValue c (level + 1) key e.1)
      (hvalues : ∀ e ∈ entries, WireValue c (level + 1) value e.2) :
      WireValue c level .map (key.code :: value.code :: sizeBytes entries.length ++
        entries.flatMap fun e => e.1 ++ e.2)
  | set {level : Nat} {element : WireType} {items : List Bytes} (hlevel : level ≤ c.maxDepth)
      (hsize : SizeWithin c.maxContainerSize items.length)
      (hitems : ∀ item ∈ items, WireValue c (level + 1) element item) :
      WireValue c level .set (element.code :: sizeBytes items.length ++ items.flatten)
  | list {level : Nat} {element : WireType} {items : List Bytes} (hlevel : level ≤ c.maxDepth)
      (hsize : SizeWithin c.maxContainerSize items.length)
      (hitems : ∀ item ∈ items, WireValue c (level + 1) element item) :
      WireValue c level .list (element.code :: sizeBytes items.length ++ items.flatten)

namespace WireValue

variable {c : WireConfig} {level : Nat} {type : WireType} {bs : Bytes}

theorem level_le (h : WireValue c level type bs) : level ≤ c.maxDepth := by
  cases h <;> assumption

/-- Where the tag tells the width, the bytes are any of that number. -/
theorem plain_iff {w : Nat} (hw : type.width? = some w) :
    WireValue c level type bs ↔ level ≤ c.maxDepth ∧ bs.length = w := by
  constructor
  · intro h
    cases h with
    | plain hlevel hwidth => exact ⟨hlevel, Option.some.inj (hwidth.symm.trans hw)⟩
    | _ => cases hw
  · rintro ⟨hlevel, rfl⟩
    exact .plain hlevel hw

/-- Behind its size, a text or a block is any bytes. -/
theorem string_iff (hlevel : level ≤ c.maxDepth) : WireValue c level .string bs ↔
    ∃ inner : Bytes, SizeWithin c.maxStringSize inner.length ∧
      bs = sizeBytes inner.length ++ inner := by
  constructor
  · intro h
    cases h with
    | plain _ hwidth => cases hwidth
    | string _ hsize => exact ⟨_, hsize, rfl⟩
  · rintro ⟨inner, hsize, rfl⟩
    exact .string hlevel hsize

theorem struct_iff (hlevel : level ≤ c.maxDepth) : WireValue c level .struct bs ↔
    ∃ fs : List WireField, (∀ f ∈ fs, WireValue c (level + 1) f.type f.value) ∧
      bs = fs.flatMap WireField.bytes ++ [WireType.stop.code] := by
  constructor
  · intro h
    cases h with
    | plain _ hwidth => cases hwidth
    | struct _ hfields => exact ⟨_, hfields, rfl⟩
  · rintro ⟨fs, hfields, rfl⟩
    exact .struct hlevel hfields

theorem map_iff (hlevel : level ≤ c.maxDepth) : WireValue c level .map bs ↔
    ∃ (key value : WireType) (entries : List (Bytes × Bytes)),
      SizeWithin c.maxContainerSize entries.length ∧
        (∀ e ∈ entries, WireValue c (level + 1) key e.1 ∧ WireValue c (level + 1) value e.2) ∧
          bs = key.code :: value.code :: sizeBytes entries.length ++
            entries.flatMap fun e => e.1 ++ e.2 := by
  constructor
  · intro h
    cases h with
    | plain _ hwidth => cases hwidth
    | map _ hsize hkeys hvalues =>
      exact ⟨_, _, _, hsize, fun e he => ⟨hkeys e he, hvalues e he⟩, rfl⟩
  · rintro ⟨key, value, entries, hsize, hentries, rfl⟩
    exact .map hlevel hsize (fun e he => (hentries e he).1) fun e he => (hentries e he).2

theorem set_iff (hlevel : level ≤ c.maxDepth) : WireValue c level .set bs ↔
    ∃ (element : WireType) (items : List Bytes), SizeWithin c.maxContainerSize items.length ∧
      (∀ item ∈ items, WireValue c (level + 1) element item) ∧
        bs = element.code :: sizeBytes items.length ++ items.flatten := by
  constructor
  · intro h
    cases h with
    | plain _ hwidth => cases hwidth
    | set _ hsize hitems => exact ⟨_, _, hsize, hitems, rfl⟩
  · rintro ⟨element, items, hsize, hitems, rfl⟩
    exact .set hlevel hsize hitems

theorem list_iff (hlevel : level ≤ c.maxDepth) : WireValue c level .list bs ↔
    ∃ (element : WireType) (items : List Bytes), SizeWithin c.maxContainerSize items.length ∧
      (∀ item ∈ items, WireValue c (level + 1) element item) ∧
        bs = element.code :: sizeBytes items.length ++ items.flatten := by
  constructor
  · intro h
    cases h with
    | plain _ hwidth => cases hwidth
    | list _ hsize hitems => exact ⟨_, _, hsize, hitems, rfl⟩
  · rintro ⟨element, items, hsize, hitems, rfl⟩
    exact .list hlevel hsize hitems

/-- The end of a struct is no value. -/
theorem not_stop : ¬ WireValue c level .stop bs := by
  intro h
  cases h with
  | plain _ hwidth => cases hwidth

end WireValue

/-! ## Numbers from their bytes -/

namespace BigEndian

theorem foldl_value (bs : Bytes) (acc : Nat) :
    bs.foldl (fun n b => n * 256 + b.toNat) acc = acc * Nat.pow 256 bs.length + value bs := by
  induction bs generalizing acc with
  | nil => simp [value]
  | cons b bs ih =>
    have hpow : Nat.pow 256 (bs.length + 1) = Nat.pow 256 bs.length * 256 := rfl
    have hcons : value (b :: bs) = (0 * 256 + b.toNat) * Nat.pow 256 bs.length + value bs :=
      ih (0 * 256 + b.toNat)
    rw [List.foldl_cons, ih, hcons, List.length_cons, hpow, Nat.add_mul, Nat.mul_assoc,
      Nat.mul_comm 256, Nat.zero_mul, Nat.zero_add, Nat.add_assoc]

theorem value_cons (b : UInt8) (bs : Bytes) :
    value (b :: bs) = b.toNat * Nat.pow 256 bs.length + value bs := by
  rw [value, List.foldl_cons, foldl_value, Nat.zero_mul, Nat.zero_add]

theorem value_lt (bs : Bytes) : value bs < Nat.pow 256 bs.length := by
  induction bs with
  | nil => exact Nat.one_pos
  | cons b bs ih =>
    have hb : b.toNat * Nat.pow 256 bs.length ≤ 255 * Nat.pow 256 bs.length :=
      Nat.mul_le_mul_right _ (Nat.le_of_lt_succ b.toNat_lt)
    have hpow : Nat.pow 256 (bs.length + 1) = Nat.pow 256 bs.length * 256 := rfl
    rw [value_cons, List.length_cons, hpow]
    omega

/-- Bytes in front of those that are asked for do not count. -/
theorem bytes_add (width high low : Nat) :
    bytes width (high * Nat.pow 256 width + low) = bytes width low := by
  induction width generalizing high with
  | zero => rfl
  | succ width ih =>
    have hpos : 0 < Nat.pow 256 width := Nat.pow_pos (by decide)
    have hsplit : high * Nat.pow 256 (width + 1) + low =
        high * 256 * Nat.pow 256 width + low := by
      have hpow : Nat.pow 256 (width + 1) = Nat.pow 256 width * 256 := rfl
      rw [hpow, Nat.mul_comm (Nat.pow 256 width), Nat.mul_assoc]
    have hdiv : (high * 256 * Nat.pow 256 width + low) / Nat.pow 256 width =
        high * 256 + low / Nat.pow 256 width := by
      rw [Nat.add_comm, Nat.add_mul_div_right _ _ hpos, Nat.add_comm]
    have hbyte : UInt8.ofNat (high * 256 + low / Nat.pow 256 width) =
        UInt8.ofNat (low / Nat.pow 256 width) := by
      apply UInt8.toNat_inj.mp
      rw [UInt8.toNat_ofNat', UInt8.toNat_ofNat']
      exact Nat.mul_add_mod_self_right high 256 _
    rw [bytes, bytes, hsplit, ih, hdiv, hbyte]

/-- Bytes are those of the number that they make up. -/
theorem bytes_value (bs : Bytes) : bytes bs.length (value bs) = bs := by
  induction bs with
  | nil => rfl
  | cons b bs ih =>
    have hpos : 0 < Nat.pow 256 bs.length := Nat.pow_pos (by decide)
    have hdiv : value (b :: bs) / Nat.pow 256 bs.length = b.toNat := by
      rw [value_cons, Nat.add_comm, Nat.add_mul_div_right _ _ hpos,
        Nat.div_eq_of_lt (value_lt bs), Nat.zero_add]
    rw [List.length_cons, bytes, hdiv, value_cons, bytes_add, ih, UInt8.ofNat_toNat]

end BigEndian

theorem WireType.code_of_ofCode {code : UInt8} {t : WireType} (h : ofCode? code = some t) :
    t.code = code := by
  have hcode := List.find?_some h
  exact beq_iff_eq.mp hcode

namespace Reading

variable {unread rest : Bytes}

/-! ## The bytes of what was read -/

theorem natural_ok {width n : Nat} (h : natural width unread = .ok n rest) :
    n < Nat.pow 256 width ∧ unread = BigEndian.bytes width n ++ rest := by
  obtain ⟨bs, hbs, rfl⟩ := Steps.map_eq_ok_iff.mp h
  obtain ⟨rfl, rfl⟩ := take_eq_ok_iff.mp hbs
  exact ⟨BigEndian.value_lt bs, by rw [BigEndian.bytes_value]⟩

theorem byte_ok {v : Int8} (h : byte unread = .ok v rest) : unread = v.toUInt8 :: rest := by
  obtain ⟨n, hn, rfl⟩ := Steps.map_eq_ok_iff.mp h
  obtain ⟨hlt, rfl⟩ := natural_ok hn
  rw [UInt8.toUInt8_toInt8]
  simp [BigEndian.bytes]

theorem i16_ok {v : Int16} (h : i16 unread = .ok v rest) :
    unread = BigEndian.bytes 2 v.toUInt16.toNat ++ rest := by
  obtain ⟨n, hn, rfl⟩ := Steps.map_eq_ok_iff.mp h
  obtain ⟨hlt, rfl⟩ := natural_ok hn
  rw [UInt16.toUInt16_toInt16, UInt16.toNat_ofNat_of_lt' hlt]

theorem i32_ok {v : Int32} (h : i32 unread = .ok v rest) :
    unread = BigEndian.bytes 4 v.toUInt32.toNat ++ rest := by
  obtain ⟨n, hn, rfl⟩ := Steps.map_eq_ok_iff.mp h
  obtain ⟨hlt, rfl⟩ := natural_ok hn
  rw [UInt32.toUInt32_toInt32, UInt32.toNat_ofNat_of_lt' hlt]

/-- Such values are read from their own bytes, whatever follows them, and from no others. -/
def Spells {α : Type} (m : Reading α) (ok : α → Prop) (bytes : α → Bytes) : Prop :=
  ∀ unread a rest, m unread = .ok a rest ↔ ok a ∧ unread = bytes a ++ rest

theorem size_spells (what : Sized) (limit : Nat) :
    Spells (size what limit) (SizeWithin limit) sizeBytes := by
  intro unread n rest
  constructor
  · intro h
    rw [size_eq] at h
    obtain ⟨v, mid, hv, h⟩ := Steps.bind_eq_ok_iff.mp h
    split at h
    · exact absurd h fail_ne_ok
    · rename_i hneg
      split at h
      · exact absurd h fail_ne_ok
      · rename_i hlimit
        obtain ⟨rfl, rfl⟩ := Steps.pure_eq_ok_iff.mp h
        have hlt := Int32.toNat_toInt_lt v
        have hsame : Int32.ofNat v.toInt.toNat = v := by
          apply Int32.toInt_inj.mp
          rw [toInt_ofNat_size hlt, Int.toNat_of_nonneg]
          rwa [Int32.lt_iff_toInt_lt, Int.not_lt] at hneg
        refine ⟨⟨hlt, Nat.le_of_not_lt hlimit⟩, ?_⟩
        rw [i32_ok hv, ← bytes_ofNat hlt, hsame]
  · rintro ⟨⟨hlt, hlimit⟩, rfl⟩
    exact size_reads hlt hlimit rest

theorem binary_spells (c : WireConfig) :
    Spells (binary c) (fun bs => SizeWithin c.maxStringSize bs.length)
      fun bs => sizeBytes bs.length ++ bs := by
  intro unread bs rest
  constructor
  · intro h
    obtain ⟨n, mid, hn, hbs⟩ := Steps.bind_eq_ok_iff.mp h
    obtain ⟨rfl, rfl⟩ := take_eq_ok_iff.mp hbs
    obtain ⟨hsize, rfl⟩ := (size_spells _ _ _ _ _).mp hn
    exact ⟨hsize, (List.append_assoc _ _ _).symm⟩
  · rintro ⟨⟨hlt, hlimit⟩, rfl⟩
    exact binary_reads hlt hlimit rest

theorem wireType_eq_ok_iff {t : WireType} :
    wireType unread = .ok t rest ↔ unread = t.code :: rest := by
  constructor
  · intro h
    obtain ⟨v, mid, hv, h⟩ := Steps.bind_eq_ok_iff.mp h
    rcases ht : WireType.ofCode? v.toUInt8 with _ | u
    · simp only [ht] at h
      exact absurd h fail_ne_ok
    · simp only [ht] at h
      obtain ⟨rfl, rfl⟩ := Steps.pure_eq_ok_iff.mp h
      rw [byte_ok hv, WireType.code_of_ofCode ht]
  · rintro rfl
    exact wireType_reads t rest

/-- Behind a tag, the header goes on with what the tag asks for. -/
theorem wireType_bind_eq_ok_iff {β : Type} {f : WireType → Reading β} {b : β} :
    (wireType >>= f) unread = .ok b rest ↔ ∃ t mid, unread = t.code :: mid ∧ f t mid = .ok b rest := by
  rw [Steps.bind_eq_ok_iff]
  simp only [wireType_eq_ok_iff]

/-- The bytes of a field header; the end of a struct has no id. -/
def FieldHeader.bytes (h : FieldHeader) : Bytes :=
  if h.type = .stop then [WireType.stop.code]
  else h.type.code :: BigEndian.bytes 2 h.id.toUInt16.toNat

theorem fieldHeader_ok {header : FieldHeader} (h : fieldHeader unread = .ok header rest) :
    unread = header.bytes ++ rest := by
  rw [fieldHeader_eq] at h
  obtain ⟨t, mid, rfl, hrest⟩ := wireType_bind_eq_ok_iff.mp h
  split at hrest
  · rename_i hstop
    obtain ⟨rfl, rfl⟩ := Steps.pure_eq_ok_iff.mp hrest
    rw [hstop]
    rfl
  · rename_i hstop
    obtain ⟨id, hid, rfl⟩ := Steps.map_eq_ok_iff.mp hrest
    rw [i16_ok hid, FieldHeader.bytes, if_neg hstop]
    rfl

/-- The bytes in front of the elements of a list or a set. -/
def ElementsHeader.bytes (h : ElementsHeader) : Bytes := h.element.code :: sizeBytes h.size

def EntriesHeader.bytes (h : EntriesHeader) : Bytes :=
  h.key.code :: h.value.code :: sizeBytes h.size

/-- The header of a list or a set, which differ in what a wrong size is told of. -/
theorem elementsHeader_spells (what : Sized) (limit : Nat) :
    Spells (do return ⟨← wireType, ← size what limit⟩) (fun h => SizeWithin limit h.size)
      ElementsHeader.bytes := by
  intro unread header rest
  constructor
  · intro h
    obtain ⟨t, mid, rfl, hrest⟩ := wireType_bind_eq_ok_iff.mp h
    obtain ⟨n, hn, rfl⟩ := Steps.map_eq_ok_iff.mp hrest
    obtain ⟨hsize, rfl⟩ := (size_spells _ _ _ _ _).mp hn
    exact ⟨hsize, rfl⟩
  · rintro ⟨hsize, rfl⟩
    have hread := (size_spells what limit _ header.size rest).mpr ⟨hsize, rfl⟩
    exact wireType_bind_eq_ok_iff.mpr ⟨header.element, _, rfl, Steps.map_ok hread _⟩

theorem listHeader_spells (c : WireConfig) : Spells (listHeader c)
    (fun h => SizeWithin c.maxContainerSize h.size) ElementsHeader.bytes :=
  elementsHeader_spells .list c.maxContainerSize

theorem setHeader_spells (c : WireConfig) : Spells (setHeader c)
    (fun h => SizeWithin c.maxContainerSize h.size) ElementsHeader.bytes :=
  elementsHeader_spells .set c.maxContainerSize

theorem mapHeader_spells (c : WireConfig) : Spells (mapHeader c)
    (fun h => SizeWithin c.maxContainerSize h.size) EntriesHeader.bytes := by
  intro unread header rest
  constructor
  · intro h
    obtain ⟨k, mid, rfl, hkey⟩ := wireType_bind_eq_ok_iff.mp h
    obtain ⟨t, mid', rfl, hvalue⟩ := wireType_bind_eq_ok_iff.mp hkey
    obtain ⟨n, hn, rfl⟩ := Steps.map_eq_ok_iff.mp hvalue
    obtain ⟨hsize, rfl⟩ := (size_spells _ _ _ _ _).mp hn
    exact ⟨hsize, rfl⟩
  · rintro ⟨⟨hlt, hlimit⟩, rfl⟩
    exact mapHeader_reads header.key header.value hlt hlimit rest

/-! ## Readings of a language -/

/-- The reading takes a word of the language, whatever follows it, and nothing else. -/
def Accepts (m : Reading Unit) (language : Bytes → Prop) : Prop :=
  ∀ unread rest, m unread = .ok () rest ↔ ∃ u, language u ∧ unread = u ++ rest

namespace Accepts

variable {m : Reading Unit} {language language' : Bytes → Prop}

theorem reads (h : Accepts m language) {u : Bytes} (hu : language u) : Reads m u () :=
  fun rest => (h _ rest).mpr ⟨u, hu, rfl⟩

theorem takes (h : Accepts m language) : Takes m := by
  intro unread a rest hr
  obtain ⟨u, -, rfl⟩ := (h unread rest).mp hr
  exact List.suffix_append u rest

/-- An input begins with one word of the language at most. -/
theorem unique (h : Accepts m language) {u u' : Bytes} (hu : language u) (hu' : language u')
    {rest rest' : Bytes} (heq : u ++ rest = u' ++ rest') : u = u' := by
  have hr := h.reads hu rest
  rw [heq, h.reads hu' rest'] at hr
  cases hr
  exact List.append_cancel_right heq

theorem congr (h : Accepts m language) (hl : ∀ u, language u ↔ language' u) :
    Accepts m language' := by
  intro unread rest
  rw [h unread rest]
  simp only [hl]

theorem none (h : ∀ unread rest, m unread ≠ .ok () rest) (hl : ∀ u, ¬ language u) :
    Accepts m language := by
  intro unread rest
  constructor
  · intro hr
    exact absurd hr (h unread rest)
  · rintro ⟨u, hu, -⟩
    exact absurd hu (hl u)

theorem bind {n : Reading Unit} (h : Accepts m language) (h' : Accepts n language') :
    Accepts (m >>= fun _ => n) fun u => ∃ v w, language v ∧ language' w ∧ u = v ++ w := by
  intro unread rest
  constructor
  · intro hr
    obtain ⟨_, mid, hm, hn⟩ := Steps.bind_eq_ok_iff.mp hr
    obtain ⟨v, hv, rfl⟩ := (h unread mid).mp hm
    obtain ⟨w, hw, rfl⟩ := (h' mid rest).mp hn
    exact ⟨v ++ w, ⟨v, w, hv, hw, rfl⟩, (List.append_assoc v w rest).symm⟩
  · rintro ⟨_, ⟨v, w, hv, hw, rfl⟩, rfl⟩
    exact ((h.reads hv).bind (h'.reads hw)) rest

/-- What was read first may say which language the words behind it are of. -/
theorem behind {α : Type} {head : Reading α} {ok : α → Prop} {bytes : α → Bytes}
    {f : α → Reading Unit} {languages : α → Bytes → Prop} (h : Spells head ok bytes)
    (hf : ∀ a, Accepts (f a) (languages a)) :
    Accepts (head >>= f) fun u => ∃ a v, ok a ∧ languages a v ∧ u = bytes a ++ v := by
  intro unread rest
  constructor
  · intro hr
    obtain ⟨a, mid, ha, hrest⟩ := Steps.bind_eq_ok_iff.mp hr
    obtain ⟨hok, rfl⟩ := (h unread a mid).mp ha
    obtain ⟨v, hv, rfl⟩ := (hf a mid rest).mp hrest
    exact ⟨bytes a ++ v, ⟨a, v, hok, hv, rfl⟩, (List.append_assoc (bytes a) v rest).symm⟩
  · rintro ⟨_, ⟨a, v, hok, hv, rfl⟩, rfl⟩
    have hhead : Reads head (bytes a) a := fun rest => (h _ a rest).mpr ⟨hok, rfl⟩
    exact (hhead.bind ((hf a).reads hv)) rest

/-- So many words of the language, one behind the other, where each word is made of something. -/
theorem times {γ : Type} {P : γ → Prop} {word : γ → Bytes}
    (h : Accepts m fun u => ∃ e, P e ∧ u = word e) (n : Nat) :
    Accepts (Reading.times m n) fun u =>
      ∃ es : List γ, es.length = n ∧ (∀ e ∈ es, P e) ∧ u = es.flatMap word := by
  induction n with
  | zero =>
    intro unread rest
    constructor
    · intro hr
      obtain ⟨-, rfl⟩ := Steps.pure_eq_ok_iff.mp hr
      exact ⟨[], ⟨[], rfl, fun _ he => absurd he List.not_mem_nil, rfl⟩, rfl⟩
    · rintro ⟨_, ⟨es, hlen, -, rfl⟩, rfl⟩
      rw [List.eq_nil_of_length_eq_zero hlen]
      rfl
  | succ n ih =>
    refine (h.bind ih).congr fun u => ?_
    constructor
    · rintro ⟨_, _, ⟨e, he, rfl⟩, ⟨es, rfl, hes, rfl⟩, rfl⟩
      exact ⟨e :: es, rfl, List.forall_mem_cons.mpr ⟨he, hes⟩, rfl⟩
    · rintro ⟨es, hlen, hes, rfl⟩
      obtain ⟨e, es, rfl⟩ := List.exists_cons_of_length_eq_add_one hlen
      obtain ⟨he, hes⟩ := List.forall_mem_cons.mp hes
      exact ⟨word e, es.flatMap word, ⟨e, he, rfl⟩, ⟨es, Nat.succ.inj hlen, hes, rfl⟩, rfl⟩

end Accepts

/-! ## Fields -/

section Fields

variable {body : WireType → Reading Unit} {language : WireType → Bytes → Prop}

/-- Fields with words of the languages of their tags, and the end of the struct. -/
def FieldsOf (language : WireType → Bytes → Prop) (u : Bytes) : Prop :=
  ∃ fs : List WireField, (∀ f ∈ fs, language f.type f.value) ∧
    u = fs.flatMap WireField.bytes ++ [WireType.stop.code]

/-- The induction is on the number of unread bytes, of which every field takes some. -/
theorem fieldsOf_of_fields (h : ∀ type, Accepts (body type) (language type))
    (hr : fields (fun header _ => body header.type) () unread = .ok () rest) :
    ∃ u, FieldsOf language u ∧ unread = u ++ rest := by
  induction hn : unread.length using Nat.strongRecOn generalizing unread with
  | ind n ih =>
    rw [fields_eq fun header _ => (h header.type).takes] at hr
    obtain ⟨header, mid, hheader, hr⟩ := Steps.bind_eq_ok_iff.mp hr
    have hmid := fieldHeader_shorter hheader
    rw [fieldHeader_ok hheader, FieldHeader.bytes]
    by_cases hstop : header.type = .stop
    · rw [if_pos hstop] at hr ⊢
      obtain ⟨-, rfl⟩ := Steps.pure_eq_ok_iff.mp hr
      exact ⟨_, ⟨[], fun _ hf => absurd hf List.not_mem_nil, rfl⟩, rfl⟩
    · rw [if_neg hstop] at hr ⊢
      obtain ⟨_, mid', hvalue, hloop⟩ := Steps.bind_eq_ok_iff.mp hr
      have hmid' := (h header.type).takes.length_le hvalue
      obtain ⟨_, ⟨fs, hfs, rfl⟩, rfl⟩ := ih mid'.length (by omega) hloop rfl
      obtain ⟨v, hv, rfl⟩ := (h header.type mid _).mp hvalue
      refine ⟨_, ⟨⟨header.type, header.id, v⟩ :: fs, List.forall_mem_cons.mpr ⟨hv, hfs⟩, rfl⟩, ?_⟩
      simp [WireField.bytes]

theorem fields_of_fieldsOf (h : ∀ type, Accepts (body type) (language type))
    (hstop : ∀ u, ¬ language .stop u) {u : Bytes} (hu : FieldsOf language u) :
    Reads (fields (fun header _ => body header.type) ()) u () := by
  have ht : ∀ (header : FieldHeader) (_ : Unit), Takes (body header.type) :=
    fun header _ => (h header.type).takes
  obtain ⟨fs, hfs, rfl⟩ := hu
  induction fs with
  | nil =>
    rw [fields_eq ht]
    exact fieldStop_reads.bind (.pure ())
  | cons f fs ih =>
    obtain ⟨hf, hfs⟩ := List.forall_mem_cons.mp hfs
    have hne : f.type ≠ .stop := by
      intro he
      rw [he] at hf
      exact hstop f.value hf
    rw [List.flatMap_cons, WireField.bytes, List.append_assoc, List.append_assoc, fields_eq ht]
    refine (fieldHeader_reads hne f.id).bind ?_
    rw [if_neg hne]
    exact ((h f.type).reads hf).bind (ih hfs)

theorem Accepts.fields (h : ∀ type, Accepts (body type) (language type))
    (hstop : ∀ u, ¬ language .stop u) :
    Accepts (Reading.fields (fun header _ => body header.type) ()) (FieldsOf language) := by
  intro unread rest
  constructor
  · exact fieldsOf_of_fields h
  · rintro ⟨u, hu, rfl⟩
    exact fields_of_fieldsOf h hstop hu rest

end Fields

/-! ## Values -/

namespace Accepts

variable {α β : Type} {language : Bytes → Prop}

theorem discard {m : Reading α} {ok : α → Prop} {bytes : α → Bytes} (h : Spells m ok bytes) :
    Accepts (Functor.discard m) fun u => ∃ a, ok a ∧ u = bytes a := by
  intro unread rest
  change ((fun _ => ()) <$> m) unread = _ ↔ _
  rw [Steps.map_eq_ok_iff]
  constructor
  · rintro ⟨a, ha, -⟩
    obtain ⟨hok, rfl⟩ := (h unread a rest).mp ha
    exact ⟨bytes a, ⟨a, hok, rfl⟩, rfl⟩
  · rintro ⟨_, ⟨a, hok, rfl⟩, rfl⟩
    exact ⟨a, (h _ a rest).mpr ⟨hok, rfl⟩, rfl⟩

/-- What is thrown away may be changed before. -/
theorem discard_map {m : Reading α} (h : Accepts (Functor.discard m) language) (f : α → β) :
    Accepts (Functor.discard (f <$> m)) language := by
  have hsame : Functor.discard (f <$> m) = Functor.discard m := by
    change (fun _ => ()) <$> f <$> m = (fun _ => ()) <$> m
    rw [← comp_map]
  rw [hsame]
  exact h

theorem discard_natural (width : Nat) :
    Accepts (Functor.discard (natural width)) (·.length = width) := by
  have htake : Spells (take width) (·.length = width) id := fun _ _ _ => take_eq_ok_iff
  refine ((discard htake).discard_map _).congr fun u => ?_
  simp

end Accepts

/-- Where the tag tells the width, that many bytes are passed over. -/
theorem skipWithin_plain (c : WireConfig) (depth : Nat) {type : WireType} {w : Nat}
    (hw : type.width? = some w) : Accepts (skipWithin c (depth + 1) type) (·.length = w) := by
  have hempty : Accepts (pure ()) (·.length = 0) := by
    intro unread rest
    simp
  cases type with
  | void =>
    cases hw
    exact hempty
  | bool =>
    cases hw
    exact ((Accepts.discard_natural 1).discard_map _).discard_map _
  | byte =>
    cases hw
    exact (Accepts.discard_natural 1).discard_map _
  | i16 =>
    cases hw
    exact (Accepts.discard_natural 2).discard_map _
  | i32 =>
    cases hw
    exact (Accepts.discard_natural 4).discard_map _
  | i64 =>
    cases hw
    exact (Accepts.discard_natural 8).discard_map _
  | double =>
    cases hw
    exact (Accepts.discard_natural 8).discard_map _
  | _ => cases hw

/-- Behind the header of a list or a set stand so many words of the language of its tag. -/
theorem elements_accepts {c : WireConfig} {header : Reading ElementsHeader}
    (hh : Spells header (fun h => SizeWithin c.maxContainerSize h.size) ElementsHeader.bytes)
    {body : WireType → Reading Unit} {language : WireType → Bytes → Prop}
    (h : ∀ type, Accepts (body type) (language type)) :
    Accepts (header >>= fun h => times (body h.element) h.size) fun u =>
      ∃ (element : WireType) (items : List Bytes), SizeWithin c.maxContainerSize items.length ∧
        (∀ item ∈ items, language element item) ∧
          u = element.code :: sizeBytes items.length ++ items.flatten := by
  have hitems : ∀ element n, Accepts (times (body element) n) fun u => ∃ items : List Bytes,
      items.length = n ∧ (∀ item ∈ items, language element item) ∧ u = items.flatMap id :=
    fun element n => ((h element).congr fun u => by simp).times n
  refine (Accepts.behind hh fun found => hitems found.element found.size).congr fun u => ?_
  constructor
  · rintro ⟨⟨element, _⟩, _, hsize, ⟨items, rfl, hall, rfl⟩, rfl⟩
    exact ⟨element, items, hsize, hall, by rw [List.flatMap_id]; rfl⟩
  · rintro ⟨element, items, hsize, hall, rfl⟩
    exact ⟨⟨element, items.length⟩, items.flatten, hsize, ⟨items, rfl, hall, by simp⟩, rfl⟩

/-- Behind the header of a map stand so many pairs of words of the languages of its tags. -/
theorem entries_accepts {c : WireConfig} {body : WireType → Reading Unit}
    {language : WireType → Bytes → Prop} (h : ∀ type, Accepts (body type) (language type)) :
    Accepts (mapHeader c >>= fun h => times (body h.key >>= fun _ => body h.value) h.size) fun u =>
      ∃ (key value : WireType) (entries : List (Bytes × Bytes)),
        SizeWithin c.maxContainerSize entries.length ∧
        (∀ e ∈ entries, language key e.1 ∧ language value e.2) ∧
          u = key.code :: value.code :: sizeBytes entries.length ++
            entries.flatMap fun e => e.1 ++ e.2 := by
  have hentries : ∀ key value n, Accepts (times (body key >>= fun _ => body value) n) fun u =>
      ∃ entries : List (Bytes × Bytes), entries.length = n ∧
        (∀ e ∈ entries, language key e.1 ∧ language value e.2) ∧
          u = entries.flatMap fun e => e.1 ++ e.2 := by
    intro key value n
    refine Accepts.times (((h key).bind (h value)).congr fun u => ?_) n
    simp only [Prod.exists, and_assoc]
  refine (Accepts.behind (mapHeader_spells c)
    fun found => hentries found.key found.value found.size).congr fun u => ?_
  constructor
  · rintro ⟨⟨key, value, _⟩, _, hsize, ⟨entries, rfl, hall, rfl⟩, rfl⟩
    exact ⟨key, value, entries, hsize, hall, rfl⟩
  · rintro ⟨key, value, entries, hsize, hall, rfl⟩
    exact ⟨⟨key, value, entries.length⟩, _, hsize, ⟨entries, rfl, hall, rfl⟩, rfl⟩

/-- Passing over a value takes a value of the grammar. The level and the depth that is left make
up the limit. -/
theorem skipWithin_accepts (c : WireConfig) {depth level : Nat}
    (hd : depth + level = c.maxDepth + 1) (type : WireType) :
    Accepts (skipWithin c depth type) (WireValue c level type) := by
  induction depth generalizing level type with
  | zero =>
    refine .none (fun _ _ => fail_ne_ok) fun u hu => ?_
    have := hu.level_le
    omega
  | succ depth ih =>
    have hlevel : level ≤ c.maxDepth := by omega
    have hbody : ∀ type, Accepts (skipWithin c depth type) (WireValue c (level + 1) type) :=
      fun type => ih (by omega) type
    rcases hw : type.width? with _ | w
    · cases type with
      | stop => exact .none (fun _ _ => fail_ne_ok) fun u => WireValue.not_stop
      | string =>
        exact (Accepts.discard (binary_spells c)).congr fun u => (WireValue.string_iff hlevel).symm
      | struct =>
        exact (Accepts.fields hbody fun _ => WireValue.not_stop).congr
          fun u => (WireValue.struct_iff hlevel).symm
      | map => exact (entries_accepts hbody).congr fun u => (WireValue.map_iff hlevel).symm
      | set =>
        exact (elements_accepts (setHeader_spells c) hbody).congr
          fun u => (WireValue.set_iff hlevel).symm
      | list =>
        exact (elements_accepts (listHeader_spells c) hbody).congr
          fun u => (WireValue.list_iff hlevel).symm
      | _ => cases hw
    · refine (skipWithin_plain c depth hw).congr fun u => ?_
      rw [WireValue.plain_iff hw]
      exact ⟨fun hlen => ⟨hlevel, hlen⟩, fun hu => hu.2⟩

/-- Passing over a value takes exactly the values of the grammar, on the outermost level. An input
begins with one of them at most. What a higher limit on the depth would let through begins with one
too, or nests too deeply and stops at the depth. -/
theorem skip_recognises (c : WireConfig) (type : WireType) (input : Bytes) :
    (∀ rest, skip c type input = .ok () rest ↔
        ∃ u, input = u ++ rest ∧ WireValue c 1 type u) ∧
      (∀ u u', WireValue c 1 type u → WireValue c 1 type u' → u <+: input → u' <+: input →
        u = u') ∧
      ∀ limit rest, c.maxDepth ≤ limit →
        skip { c with maxDepth := limit } type input = .ok () rest →
          (∃ u, u <+: input ∧ WireValue c 1 type u) ∨
            ∃ left, skip c type input = .error (.protocol .skipDepth) left := by
  have haccepts : Accepts (skip c type) (WireValue c 1 type) := skipWithin_accepts c rfl type
  refine ⟨fun rest => ?_, ?_, ?_⟩
  · rw [haccepts input rest]
    simp only [and_comm]
  · rintro u u' hu hu' ⟨rest, rfl⟩ ⟨rest', heq⟩
    exact haccepts.unique hu hu' heq.symm
  · intro limit rest hlimit hwider
    rcases (skip_curbed c hlimit type).ok_or hwider with hsame | ⟨_, left, rfl, hstop⟩
    · obtain ⟨u, hu, rfl⟩ := (haccepts input rest).mp hsame
      exact .inl ⟨u, List.prefix_append u rest, hu⟩
    · exact .inr ⟨left, hstop⟩

/-- One byte inside of a list, which one level is too few for. -/
theorem skip_recognises_list :
    WireValue {} 1 .list [3, 0, 0, 0, 1, 7] ∧
      ∃ left, skip { maxDepth := 1 } .list [3, 0, 0, 0, 1, 7, 9] =
        .error (.protocol .skipDepth) left := by
  obtain ⟨htaken, -, -⟩ := skip_recognises {} .list [3, 0, 0, 0, 1, 7, 9]
  obtain ⟨u, hu, hvalue⟩ := (htaken [9]).mp rfl
  have heq : [3, 0, 0, 0, 1, 7] = u := (List.append_left_inj [9]).mp hu
  obtain ⟨hshallow, -, hdeep⟩ := skip_recognises { maxDepth := 1 } .list [3, 0, 0, 0, 1, 7, 9]
  refine ⟨heq ▸ hvalue, ?_⟩
  rcases hdeep 2 [9] (by decide) rfl with ⟨v, ⟨rest, hv⟩, hvalue'⟩ | hstop
  · have hok := (hshallow rest).mpr ⟨v, hv.symm, hvalue'⟩
    cases hok
  · exact hstop

end Reading

end Thrift
