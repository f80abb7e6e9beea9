-- Structs as sequences of segments, each a header with what stands behind it. Decoding keeps the
-- last value of each member and nothing else, so segments that no member takes may stand anywhere,
-- and segments of different ids in any order.
import Thrift.Proofs.Closure
import Thrift.Proofs.DecodeRefines
import Thrift.Proofs.Framing
import Thrift.Proofs.Normal
import Thrift.Proofs.ReadBack

namespace Thrift

open Reading (Delimits Reads)

/-! ## Segments -/

structure Segment where
  header : Reading.FieldHeader
  payload : Bytes

namespace Segment

def bytes (g : Segment) : Bytes :=
  g.header.type.code :: BigEndian.bytes 2 g.header.id.toUInt16.toNat ++ g.payload

/-- The bytes of a struct that is made of segments. -/
def stream (segments : List Segment) : Bytes :=
  segments.flatMap bytes ++ [WireType.stop.code]

theorem stream_cons (g : Segment) (segments : List Segment) : stream (g :: segments) =
    (g.header.type.code :: BigEndian.bytes 2 g.header.id.toUInt16.toNat) ++
      (g.payload ++ stream segments) := by
  simp [stream, bytes]

/-- The segment has the id and the tag of the member. -/
def isOf (m : Member) (g : Segment) : Bool :=
  g.header.id == m.id && g.header.type == m.form.wireType

@[simp] theorem isOf_iff {m : Member} {g : Segment} :
    g.isOf m = true ↔ g.header.id = m.id ∧ g.header.type = m.form.wireType := by
  simp [isOf]

end Segment

namespace Member

/-- How the value of a member is read inside of a struct. -/
def reading (d : Compiled) (config : WireConfig) (m : Member) : Reading Value :=
  m.form.read config (Machine.decodeWithin d config (config.maxDepth - 1))

/-- The value in a segment, if the whole payload is one of the member. -/
def valueIn (d : Compiled) (config : WireConfig) (m : Member) (g : Segment) : Option Value :=
  match m.reading d config g.payload with
  | .ok v [] => some v
  | _ => none

/-- The value of the last segment that is one of the member. -/
def lastIn (d : Compiled) (config : WireConfig) (m : Member) (segments : List Segment) :
    Option Value :=
  (segments.reverse.find? (·.isOf m)).bind (m.valueIn d config)

end Member

namespace Record

/-- The member that a segment is one of. A member without values has no segments. -/
def member? (r : Record) (g : Segment) : Option Member := r.sent.find? (g.isOf ·)

/-- The payload is a value of the member that the segment is one of. If there is no such member,
it is something that is passed over as the tag tells. -/
def Fits (d : Compiled) (config : WireConfig) (r : Record) (g : Segment) : Prop :=
  match r.member? g with
  | some m => ∃ v, m.reading d config g.payload = .ok v []
  | none => Reading.skip config g.header.type g.payload = .ok () []

/-- The last value of each member that has one, under its name. -/
def lastValues (d : Compiled) (config : WireConfig) (r : Record) (segments : List Segment) :
    List (String × Value) :=
  r.sent.filterMap fun m => (m.lastIn d config segments).map (m.name, ·)

/-- The struct that construction builds of values, or its fault. Nothing is read for it. -/
def construct (r : Record) (values : List (String × Value)) : Reading StructValue :=
  match Machine.build r.name r.kind (r.sent.map Member.toInit) values with
  | .ok v => pure v
  | .error cause => Reading.fail cause

/-- Segments of no member are put in or left out, and neighbours of different ids are swapped, so
often as one likes. -/
inductive Rearranged (r : Record) : List Segment → List Segment → Prop
  | refl (segments : List Segment) : Rearranged r segments segments
  | symm {segments segments' : List Segment} :
      Rearranged r segments segments' → Rearranged r segments' segments
  | trans {segments segments' segments'' : List Segment} : Rearranged r segments segments' →
      Rearranged r segments' segments'' → Rearranged r segments segments''
  | drop (before after : List Segment) {g : Segment} (hg : r.member? g = none) :
      Rearranged r (before ++ g :: after) (before ++ after)
  | swap (before after : List Segment) {g g' : Segment} (hid : g.header.id ≠ g'.header.id) :
      Rearranged r (before ++ g :: g' :: after) (before ++ g' :: g :: after)

/-- Decoding looks at nothing but the last values of the members. -/
structure LastCounts (d : Compiled) (config : WireConfig) (r : Record) : Prop where
  decode_eq : ∀ (segments : List Segment) (rest : Bytes), (∀ g ∈ segments, r.Fits d config g) →
    Machine.decode d config r.name (Segment.stream segments ++ rest) =
      r.construct (r.lastValues d config segments) rest
  rearranged : ∀ (segments segments' : List Segment) (rest : Bytes),
    (∀ g ∈ segments, r.Fits d config g) → (∀ g ∈ segments', r.Fits d config g) →
      r.Rearranged segments segments' →
        Machine.decode d config r.name (Segment.stream segments ++ rest) =
          Machine.decode d config r.name (Segment.stream segments' ++ rest)

variable {d : Compiled} {config : WireConfig} {r : Record} {g : Segment} {m : Member}

theorem mem_of_member? (h : r.member? g = some m) : m ∈ r.sent ∧ g.isOf m = true := by
  unfold member? at h
  exact ⟨List.mem_of_find?_eq_some h, by simpa using List.find?_some h⟩

/-- Where ids differ, a segment is one of one member only. -/
theorem member?_eq_some_iff (hids : (r.members.map (·.id)).Nodup) :
    r.member? g = some m ↔ m ∈ r.sent ∧ g.isOf m = true := by
  constructor
  · exact mem_of_member?
  · rintro ⟨hm, hof⟩
    rcases hother : r.member? g with _ | m'
    · exact absurd hof (List.find?_eq_none.mp hother m hm)
    · obtain ⟨hm', hof'⟩ := mem_of_member? hother
      have hid : m.id = m'.id :=
        (Segment.isOf_iff.mp hof).1.symm.trans (Segment.isOf_iff.mp hof').1
      have hsame := List.inj_on_of_nodup_map hids (List.mem_of_mem_filter hm)
        (List.mem_of_mem_filter hm') hid
      rw [hsame]

theorem fits_of_some (hg : r.member? g = some m) (h : r.Fits d config g) :
    ∃ v, m.reading d config g.payload = .ok v [] := by
  unfold Fits at h
  rwa [hg] at h

theorem fits_of_none (hg : r.member? g = none) (h : r.Fits d config g) :
    Reading.skip config g.header.type g.payload = .ok () [] := by
  unfold Fits at h
  rwa [hg] at h

/-- A segment that fits has the tag of some value. -/
theorem Fits.type_ne_stop (h : r.Fits d config g) : g.header.type ≠ .stop := by
  intro hstop
  rcases hg : r.member? g with _ | m
  · have hskip := fits_of_none hg h
    rw [hstop, Reading.skip] at hskip
    rcases hdepth : config.maxDepth with _ | depth <;> rw [hdepth] at hskip <;> cases hskip
  · have htype := (Segment.isOf_iff.mp (mem_of_member? hg).2).2
    exact m.form.wireType_ne_stop (htype.symm.trans hstop)

/-! ## One segment -/

section

variable {nested : String → Reading StructValue} {found : List (String × Value)}

theorem readField_of_some (hids : (r.members.map (·.id)).Nodup) (hg : r.member? g = some m) :
    r.readField config nested g.header found =
      (fun v => (m.name, v) :: found) <$> m.form.read config nested := by
  obtain ⟨hm, hof⟩ := mem_of_member? hg
  obtain ⟨hid, htype⟩ := Segment.isOf_iff.mp hof
  obtain ⟨hmem, hvoid⟩ := List.mem_filter.mp hm
  unfold readField
  rw [hid, find?_of_nodup hids hmem]
  dsimp only
  unfold Member.readValue
  rw [if_pos htype, if_neg (by simpa using hvoid)]
  rfl

/-- Under the tag of a member without values stand no bytes, so it is passed over as well. -/
theorem readField_of_none (hconfig : 0 < config.maxDepth) (hg : r.member? g = none) :
    r.readField config nested g.header found =
      (fun _ => found) <$> Reading.skip config g.header.type := by
  unfold readField
  split
  · rename_i m hfind
    have hm := List.mem_of_find?_eq_some hfind
    have hid : m.id = g.header.id := by simpa using List.find?_some hfind
    unfold Member.readValue
    by_cases htype : g.header.type = m.form.wireType
    · have hvoid : m.isVoid = true := by
        by_contra hvoid
        have hsent : m ∈ r.sent := List.mem_filter.mpr ⟨hm, by simpa using hvoid⟩
        exact List.find?_eq_none.mp hg m hsent (Segment.isOf_iff.mpr ⟨hid.symm, htype⟩)
      have hform : m.form.wireType = .void :=
        Form.wireType_eq_void_iff.mpr (beq_iff_eq.mp hvoid)
      rw [if_pos htype, if_pos hvoid, htype, hform, Machine.skip_void hconfig]
      rfl
    · rw [if_neg htype]
      rfl
  · rfl

end

/-- What a segment adds to the values that were found. -/
def hit (d : Compiled) (config : WireConfig) (r : Record) (g : Segment) :
    Option (String × Value) :=
  (r.member? g).bind fun m => (m.valueIn d config g).map (m.name, ·)

theorem hit_of_some {v : Value} (hg : r.member? g = some m)
    (hv : m.reading d config g.payload = .ok v []) : r.hit d config g = some (m.name, v) := by
  unfold hit Member.valueIn
  rw [hg, Option.bind_some, hv]
  rfl

theorem hit_of_none (hg : r.member? g = none) : r.hit d config g = none := by
  unfold hit
  rw [hg, Option.bind_none]

theorem reads_of_delimits {α : Type} {reading : Reading α} (h : Delimits reading) {bs : Bytes}
    {a : α} (hok : reading bs = .ok a []) : Reads reading bs a := by
  intro rest
  exact h.extend hok rest

/-- How a record is read when its members come from a compiled document. -/
def fieldReading (d : Compiled) (config : WireConfig) (r : Record) (header : Reading.FieldHeader)
    (found : List (String × Value)) : Reading (List (String × Value)) :=
  r.readField config (Machine.decodeWithin d config (config.maxDepth - 1)) header found

/-- A segment that fits is read whole, and adds the value of its member, if it has one. -/
theorem fieldReading_segment (hconfig : 0 < config.maxDepth)
    (hids : (r.members.map (·.id)).Nodup) (hends : ∀ m ∈ r.sent, Delimits (m.reading d config))
    (h : r.Fits d config g) (found : List (String × Value)) :
    Reads (r.fieldReading d config g.header found) g.payload
      ((r.hit d config g).toList ++ found) := by
  unfold fieldReading
  rcases hg : r.member? g with _ | m
  · have hskip := fits_of_none hg h
    rw [readField_of_none hconfig hg, hit_of_none hg]
    exact (reads_of_delimits (Delimits.law.skip config g.header.type) hskip).map _
  · obtain ⟨v, hv⟩ := fits_of_some hg h
    rw [readField_of_some hids hg, hit_of_some hg hv]
    exact (reads_of_delimits (hends m (mem_of_member? hg).1) hv).map _

/-! ## All segments -/

/-- Segments that fit are read one after the other, the latest value first. -/
theorem fields_segments (hconfig : 0 < config.maxDepth) (hids : (r.members.map (·.id)).Nodup)
    (hends : ∀ m ∈ r.sent, Delimits (m.reading d config))
    (ht : ∀ header found, Reading.Takes (r.fieldReading d config header found))
    {segments : List Segment} (h : ∀ g ∈ segments, r.Fits d config g)
    (found : List (String × Value)) :
    Reads (Reading.fields (r.fieldReading d config) found) (Segment.stream segments)
      (segments.reverse.filterMap (r.hit d config) ++ found) := by
  induction segments generalizing found with
  | nil =>
    rw [Reading.fields_eq ht]
    exact Reading.fieldStop_reads.bind (.pure found)
  | cons g segments ih =>
    obtain ⟨hg, hrest⟩ := List.forall_mem_cons.mp h
    have hvalues : (g :: segments).reverse.filterMap (r.hit d config) ++ found =
        segments.reverse.filterMap (r.hit d config) ++ ((r.hit d config g).toList ++ found) := by
      rcases hhit : r.hit d config g with _ | e <;> simp [hhit]
    rw [Segment.stream_cons, hvalues, Reading.fields_eq ht]
    refine (Reading.fieldHeader_reads hg.type_ne_stop g.header.id).bind ?_
    rw [if_neg hg.type_ne_stop]
    exact (fieldReading_segment hconfig hids hends hg found).bind (ih hrest _)

/-! ## Last values -/

theorem find?_name_eq_some_iff {ms : List Member} (h : (ms.map (·.name)).Nodup) {name : String} :
    ms.find? (·.name == name) = some m ↔ m ∈ ms ∧ m.name = name := by
  constructor
  · intro hfind
    exact ⟨List.mem_of_find?_eq_some hfind, by simpa using List.find?_some hfind⟩
  · rintro ⟨hm, rfl⟩
    exact find?_of_nodup h hm

theorem lookup_filterMap {ms : List Member} (h : (ms.map (·.name)).Nodup)
    (value : Member → Option Value) (name : String) :
    (ms.filterMap fun m => (value m).map (m.name, ·)).lookup name =
      (ms.find? (·.name == name)).bind value := by
  induction ms with
  | nil => rfl
  | cons m ms ih =>
    obtain ⟨hnew, hms⟩ := List.nodup_cons.mp h
    by_cases hname : m.name = name
    · subst hname
      rcases hvalue : value m with _ | v
      · simp [hvalue, ih hms, find?_name_eq_none hnew]
      · simp [hvalue]
    · rw [List.find?_cons_of_neg (by simpa using hname), ← ih hms]
      rcases hvalue : value m with _ | v
      · simp [hvalue]
      · simp [hvalue, lookup_cons_ne (Ne.symm hname)]

/-- What comes first under a name is what the first segment of its member holds. -/
theorem lookup_hits (hids : (r.members.map (·.id)).Nodup)
    (hnames : (r.members.map (·.name)).Nodup) {segments : List Segment}
    (h : ∀ g ∈ segments, r.Fits d config g) (name : String) :
    (segments.filterMap (r.hit d config)).lookup name =
      (r.sent.find? (·.name == name)).bind fun m =>
        (segments.find? (·.isOf m)).bind (m.valueIn d config) := by
  induction segments with
  | nil => simp
  | cons g segments ih =>
    obtain ⟨hg, hrest⟩ := List.forall_mem_cons.mp h
    have hskip : ∀ m, r.sent.find? (·.name == name) = some m → r.member? g ≠ some m →
        (g :: segments).find? (·.isOf m) = segments.find? (·.isOf m) := by
      intro m hm hne
      refine List.find?_cons_of_neg fun hof => hne ?_
      exact (member?_eq_some_iff hids).mpr ⟨List.mem_of_find?_eq_some hm, hof⟩
    rcases hmember : r.member? g with _ | m
    · rw [List.filterMap_cons_none (hit_of_none hmember), ih hrest]
      refine Option.bind_congr fun m hm => ?_
      rw [hskip m hm (by simp [hmember])]
    · obtain ⟨v, hv⟩ := fits_of_some hmember hg
      obtain ⟨hm, hof⟩ := mem_of_member? hmember
      rw [List.filterMap_cons_some (hit_of_some hmember hv)]
      by_cases hname : m.name = name
      · have hfind := (find?_name_eq_some_iff (sent_names_nodup hnames)).mpr ⟨hm, hname⟩
        have hvalue : m.valueIn d config g = some v := by
          unfold Member.valueIn
          rw [hv]
        rw [hfind, Option.bind_some, List.find?_cons_of_pos hof, Option.bind_some, hvalue, hname,
          lookup_cons_self]
      · rw [lookup_cons_ne (Ne.symm hname), ih hrest]
        refine Option.bind_congr fun m' hm' => ?_
        rw [hskip m' hm' fun heq => ?_]
        cases hmember.symm.trans heq
        exact hname (by simpa using List.find?_some hm')

/-- The values that are found and the last values are the same under every name. -/
theorem lookup_lastValues (hids : (r.members.map (·.id)).Nodup)
    (hnames : (r.members.map (·.name)).Nodup) {segments : List Segment}
    (h : ∀ g ∈ segments, r.Fits d config g) (name : String) :
    (segments.reverse.filterMap (r.hit d config)).lookup name =
      (r.lastValues d config segments).lookup name := by
  have hreverse : ∀ g ∈ segments.reverse, r.Fits d config g := by
    intro g hg
    exact h g (List.mem_reverse.mp hg)
  rw [lookup_hits hids hnames hreverse, lastValues, lookup_filterMap (sent_names_nodup hnames)]
  rfl

/-! ## Other sequences -/

/-- Only segments of a member can change its last value. -/
theorem Rearranged.lastIn_eq {segments segments' : List Segment}
    (h : r.Rearranged segments segments') (hm : m ∈ r.sent) :
    m.lastIn d config segments = m.lastIn d config segments' := by
  induction h with
  | refl => rfl
  | symm _ ih => exact ih.symm
  | trans _ _ ih ih' => exact ih.trans ih'
  | @drop before after g hg =>
    have hno : ¬ g.isOf m = true := List.find?_eq_none.mp hg m hm
    simp [Member.lastIn, List.find?_append, hno]
  | @swap before after g g' hid =>
    have hboth : ¬ (g.isOf m = true ∧ g'.isOf m = true) := by
      rintro ⟨hof, hof'⟩
      exact hid ((Segment.isOf_iff.mp hof).1.trans (Segment.isOf_iff.mp hof').1.symm)
    unfold Member.lastIn
    by_cases hof : g.isOf m = true <;> by_cases hof' : g'.isOf m = true
    · exact absurd ⟨hof, hof'⟩ hboth
    all_goals simp [List.find?_append, hof, hof']

theorem Rearranged.lastValues_eq {segments segments' : List Segment}
    (h : r.Rearranged segments segments') :
    r.lastValues d config segments = r.lastValues d config segments' := by
  unfold lastValues
  refine List.filterMap_congr fun m hm => ?_
  rw [h.lastIn_eq hm]

/-! ## Decoding -/

section

variable {s : Schema} (hs : d.RealizesSchema s)

include hs

theorem nested_eq : Machine.decodeWithin d config (config.maxDepth - 1) =
    s.readWithin Record.built config (config.maxDepth - 1) :=
  funext fun name => Machine.decodeWithin_eq hs (Nat.sub_le config.maxDepth 1) name

theorem fieldReading_takes (header : Reading.FieldHeader) (found : List (String × Value)) :
    Reading.Takes (r.fieldReading d config header found) := by
  unfold fieldReading
  rw [nested_eq hs]
  exact readField_takes (s.readWithin_takes Record.built config _) r header found

theorem reading_delimits (hclosed : s.Closed) (hr : r ∈ s.records) (hm : m ∈ r.sent) :
    Delimits (m.reading d config) := by
  unfold Member.reading
  rw [nested_eq hs]
  apply Delimits.law.value
  intro name hname
  obtain ⟨inner, hinner⟩ := hclosed r hr name
    (List.mem_flatMap.mpr ⟨m, List.mem_of_mem_filter hm, hname⟩)
  exact Delimits.law.struct hclosed Record.built config _ hinner

/-- The record of a struct is read field by field, and then the struct is built. -/
theorem decode_eq (hconfig : 0 < config.maxDepth) {name : String} (hr : s.record? name = some r) :
    Machine.decode d config name =
      Reading.fields (r.fieldReading d config) [] >>= r.construct := by
  have hread : Machine.decode d config name =
      s.readWithin Record.built config (config.maxDepth - 1 + 1) name := by
    rw [Machine.decode, Machine.decodeWithin_eq hs (Nat.le_refl _), Nat.sub_add_cancel hconfig]
  rw [hread, Schema.readWithin, hr]
  dsimp only
  rw [← nested_eq hs]
  rfl

/-- Segments that fit are read whole, and the struct is built of what they add. -/
theorem decode_hits (hclosed : s.Closed) (hconfig : 0 < config.maxDepth) {name : String}
    (hr : s.record? name = some r) {segments : List Segment}
    (h : ∀ g ∈ segments, r.Fits d config g) (rest : Bytes) :
    Machine.decode d config name (Segment.stream segments ++ rest) =
      r.construct (segments.reverse.filterMap (r.hit d config)) rest := by
  have hids := hs.ids_nodup r (Schema.mem_of_record? hr)
  have hfields := fields_segments hconfig hids
    (fun m hm => reading_delimits hs hclosed (Schema.mem_of_record? hr) hm)
    (fieldReading_takes hs) h []
  rw [List.append_nil] at hfields
  rw [decode_eq hs hconfig hr, Steps.bind_ok (hfields rest)]

/-- What is built depends on the last values only. -/
theorem decode_stream (hclosed : s.Closed) (hconfig : 0 < config.maxDepth) {name : String}
    (hr : s.record? name = some r) (hnames : (r.members.map (·.name)).Nodup)
    {segments : List Segment} (h : ∀ g ∈ segments, r.Fits d config g) (rest : Bytes) :
    Machine.decode d config name (Segment.stream segments ++ rest) =
      r.construct (r.lastValues d config segments) rest := by
  have hids := hs.ids_nodup r (Schema.mem_of_record? hr)
  have hsame := fun name => lookup_lastValues hids hnames h name
  rw [decode_hits hs hclosed hconfig hr h, construct, construct, Machine.build_congr _ _ _ hsame]

/-- Segments of no member are passed over, and the struct is built of nothing. -/
theorem decode_foreign (hclosed : s.Closed) (hconfig : 0 < config.maxDepth) {name : String}
    (hr : s.record? name = some r) {segments : List Segment}
    (h : ∀ g ∈ segments, r.member? g = none ∧
      Reading.skip config g.header.type g.payload = .ok () []) (rest : Bytes) :
    Machine.decode d config name (Segment.stream segments ++ rest) = r.construct [] rest := by
  have hfits : ∀ g ∈ segments, r.Fits d config g := by
    intro g hg
    obtain ⟨hnone, hskip⟩ := h g hg
    unfold Fits
    rwa [hnone]
  have hnothing : segments.reverse.filterMap (r.hit d config) = [] := by
    refine List.filterMap_eq_nil_iff.mpr fun g hg => hit_of_none ?_
    exact (h g (List.mem_reverse.mp hg)).1
  rw [decode_hits hs hclosed hconfig hr hfits, hnothing]

theorem lastCounts (hclosed : s.Closed) (hconfig : 0 < config.maxDepth)
    (hr : s.record? r.name = some r) (hnames : (r.members.map (·.name)).Nodup) :
    r.LastCounts d config := by
  refine ⟨fun segments rest h => decode_stream hs hclosed hconfig hr hnames h rest, ?_⟩
  intro segments segments' rest h h' hrearranged
  rw [decode_stream hs hclosed hconfig hr hnames h rest,
    decode_stream hs hclosed hconfig hr hnames h' rest, hrearranged.lastValues_eq]

end

end Record

/-! ## Compiled documents -/

/-- In a compiled document, decoding a struct whose fields have names of their own looks only at
the last value of each field, whatever stands between and wherever it stands. -/
theorem Machine.decode_segments {d : Document} {c : Compiled} (hc : d.compile = .ok c) :
    ∃ s, d.schema = .ok s ∧ ∀ carrier ∈ d.carriers, (carrier.2.fields.map (·.name)).Nodup →
      ∃ r, s.record? carrier.2.name = some r ∧
        ∀ config : WireConfig, 0 < config.maxDepth → r.LastCounts c config := by
  obtain ⟨s, hs, hrealizes⟩ := Compiled.realizes_of_compile hc
  obtain ⟨t, ht, -⟩ := Document.declares_of_compile hc
  have hclosed := Document.closed_of_compile hc ht hs hrealizes
  refine ⟨s, hs, fun carrier hcarrier hnames => ?_⟩
  obtain ⟨r, hof, hr⟩ := Document.record_of_carrier hc ht hs hrealizes hcarrier
  refine ⟨r, hr, fun config hconfig => ?_⟩
  rw [← Record.names_of_ofDefinition hof] at hnames
  rw [← Schema.name_of_record? hr] at hr
  exact Record.lastCounts hrealizes hclosed hconfig hr hnames

namespace Document

/-- The codecs of the document with the shelf. -/
def shelfCodecs : Compiled :=
  match shelf.compile with
  | .ok c => c
  | .error _ => ⟨[], []⟩

theorem compile_shelf : shelf.compile = .ok shelfCodecs := rfl

def shelfRecord : Record := (shelfSchema.record? "Shelf").getD ⟨"Shelf", .struct, []⟩

/-- A shelf with two labels, a room under a tag of another type, and a number that no field of a
shelf takes. -/
def shelfSegments : List Segment :=
  [⟨⟨.string, 1⟩, [0, 0, 0, 1, 0x61]⟩, ⟨⟨.byte, 3⟩, [9]⟩, ⟨⟨.i32, 8⟩, [0, 0, 0, 5]⟩,
    ⟨⟨.string, 1⟩, [0, 0, 0, 1, 0x62]⟩]

theorem shelfSegments_fit : ∀ g ∈ shelfSegments, shelfRecord.Fits shelfCodecs {} g := by
  intro g hg
  simp only [shelfSegments, List.mem_cons, List.not_mem_nil, or_false] at hg
  rcases hg with rfl | rfl | rfl | rfl
  · exact ⟨.string "a", rfl⟩
  · exact rfl
  · exact rfl
  · exact ⟨.string "b", rfl⟩

end Document

theorem Machine.decode_segments_shelf : Document.shelf.compile = .ok Document.shelfCodecs ∧
    Document.shelfRecord.LastCounts Document.shelfCodecs {} ∧
      (∀ g ∈ Document.shelfSegments, Document.shelfRecord.Fits Document.shelfCodecs {} g) ∧
      decode Document.shelfCodecs {} "Shelf" (Segment.stream Document.shelfSegments) =
        .ok ⟨"Shelf", [("label", .string "b"), ("room", .i32 7)]⟩ [] := by
  obtain ⟨s, hs, hall⟩ := decode_segments Document.compile_shelf
  cases Document.schema_shelf.symm.trans hs
  obtain ⟨r, hr, hcounts⟩ := hall _ List.mem_cons_self (by decide)
  have hrecord : r = Document.shelfRecord := (Option.some.inj hr).symm
  subst hrecord
  have hlast := hcounts {} (by decide)
  have hdecode := hlast.decode_eq Document.shelfSegments [] Document.shelfSegments_fit
  rw [List.append_nil] at hdecode
  exact ⟨Document.compile_shelf, hlast, Document.shelfSegments_fit, hdecode⟩

end Thrift
