-- Names of fields. A codec has the fields of its struct under the names that the document gives
-- them, and only their ids are checked. Where a name comes twice, the first field of the name takes
-- what was received, and a later one puts its default over it.
import Thrift.Proofs.DecodeRefines
import Thrift.Proofs.Realized

namespace Thrift

/-! ## Construction -/

namespace Machine

/-- The default of the last field that has one. -/
def lastDefault (inits : List FieldInit) : Option Value := inits.reverse.findSome? (·.default)

theorem lastDefault_cons (f : FieldInit) (fs : List FieldInit) :
    lastDefault (f :: fs) = (lastDefault fs).or f.default := by
  have hlast : [f].findSome? (·.default) = f.default := by
    rcases h : f.default with _ | v <;> simp [h]
  rw [lastDefault, List.reverse_cons, List.findSome?_append, hlast, lastDefault]

/-- What construction leaves under a name: the last default among the fields of the name but the
first, else what was received, else the default of the first. -/
def settled (inits : List FieldInit) (received : List (String × Value)) (name : String) :
    Option Value :=
  match inits.filter (·.name == name) with
  | [] => none
  | f :: later => (lastDefault later).or ((received.lookup name).or f.default)

theorem settled_congr (inits : List FieldInit) {received received' : List (String × Value)}
    {name : String} (h : received.lookup name = received'.lookup name) :
    settled inits received name = settled inits received' name := by
  rw [settled, settled, h]

theorem settled_cons_self {f : FieldInit} (fs : List FieldInit)
    (received : List (String × Value)) :
    settled (f :: fs) received f.name =
      (lastDefault (fs.filter (·.name == f.name))).or ((received.lookup f.name).or f.default) := by
  rw [settled, List.filter_cons_of_pos (by simp)]

theorem settled_cons_ne {f : FieldInit} {name : String} (h : f.name ≠ name) (fs : List FieldInit)
    (received : List (String × Value)) :
    settled (f :: fs) received name = settled fs received name := by
  rw [settled, List.filter_cons_of_neg (by simpa using h), settled]

/-- Fields that find nothing received leave their last default. -/
theorem settled_of_none (inits : List FieldInit) {received : List (String × Value)}
    {name : String} (h : received.lookup name = none) :
    settled inits received name = lastDefault (inits.filter (·.name == name)) := by
  unfold settled
  split
  · rename_i hnone
    rw [hnone]
    rfl
  · rename_i f later hsome
    rw [hsome, h, Option.none_or, lastDefault_cons]

theorem lookup_fill (inits : List FieldInit) (set left : List (String × Value)) (name : String) :
    (fill inits set left).lookup name = (settled inits left name).or (set.lookup name) := by
  induction inits generalizing set left with
  | nil => rfl
  | cons f fs ih =>
    rw [fill]
    by_cases hname : f.name = name
    · subst hname
      rw [settled_cons_self]
      rcases hleft : left.lookup f.name with _ | v
      · have hdefaults := settled_of_none fs hleft
        rcases hdefault : f.default with _ | v
        · dsimp only
          rw [ih, hdefaults]
          simp
        · dsimp only
          rw [ih, hdefaults, Fields.lookup_insert_self]
          simp
      · have hdefaults := settled_of_none fs (Fields.lookup_erase_self f.name left)
        dsimp only
        rw [ih, hdefaults, Fields.lookup_insert_self]
        simp
    · rw [settled_cons_ne hname]
      split
      · rw [ih, Fields.lookup_insert_ne (Ne.symm hname),
          settled_congr fs (Fields.lookup_erase_ne (Ne.symm hname) left)]
      · rw [ih, Fields.lookup_insert_ne (Ne.symm hname)]
      · exact ih set left

/-- A built struct holds under each name what construction leaves there. -/
theorem lookup_filled (inits : List FieldInit) (received : List (String × Value)) (name : String) :
    (filled inits received).lookup name = settled inits received name := by
  rw [filled_eq_fill, lookup_fill]
  exact Option.or_none

end Machine

namespace Record

/-- What an instance of the record holds under a name when this was received. -/
def settled (r : Record) (received : List (String × Value)) (name : String) : Option Value :=
  Machine.settled (r.sent.map Member.toInit) received name

/-- Where names differ, a received value stays and a default is taken only in its absence. -/
theorem settled_of_nodup {r : Record} (hnames : (r.members.map (·.name)).Nodup)
    (received : List (String × Value)) {m : Member} (hm : m ∈ r.sent) :
    r.settled received m.name = (received.lookup m.name).or m.default := by
  have hsent : ((r.sent.map Member.toInit).map (·.name)).Nodup := by
    rw [List.map_map]
    exact List.Nodup.sublist (List.Sublist.map _ List.filter_sublist) hnames
  have honly : (r.sent.map Member.toInit).filter (·.name == m.name) = [m.toInit] :=
    filter_of_nodup hsent (List.mem_map_of_mem hm)
  rw [settled, Machine.settled, honly]
  rfl

end Record

/-! ## Codecs -/

/-- The codec has the fields of the struct in their order and under their names, and the ids of its
fields are distinct. -/
structure StructCodec.NamedAs (carrier : StructKind × StructLike) (codec : StructCodec) :
    Prop where
  name_eq : codec.name = carrier.2.name
  kind_eq : codec.kind = carrier.1
  names_eq : codec.fields.map (·.name) = carrier.2.fields.map (·.name)
  ids_nodup : (codec.fields.map (·.id)).Nodup

theorem StructCodec.namedAs_of_ofCarrier {t : SymbolTable} {carrier : StructKind × StructLike}
    {codec : StructCodec} (h : ofCarrier t carrier = .ok codec) : NamedAs carrier codec := by
  obtain ⟨ls, hls, h⟩ := Steps.except_bind_eq_ok_iff.mp h
  obtain ⟨dec, -, h⟩ := Steps.except_bind_eq_ok_iff.mp h
  obtain ⟨enc, -, h⟩ := Steps.except_bind_eq_ok_iff.mp h
  cases h
  have hnames := Steps.map_eq_of_forall₂ (f := Field.name) (g := FieldLayout.name)
    (declaredBy_of_ofFields hls) fun _ _ hl => hl.name_eq.symm
  exact ⟨rfl, rfl, hnames.symm, (ids_of_ofFields hls).1⟩

namespace Compiled

theorem namedAs_of_compile {d : Document} {c : Compiled} (hc : d.compile = .ok c) :
    List.Forall₂ StructCodec.NamedAs d.carriers c.structs := by
  obtain ⟨t, -, h⟩ := Document.compile_eq_ok_iff.mp hc
  have hcodecs := Steps.mapM_eq_ok_iff.mp (ofSymbols_eq_ok_iff.mp h).1
  exact hcodecs.imp fun _ _ => StructCodec.namedAs_of_ofCarrier

/-- The codec of an answer has the success slot and the declared exceptions for fields. -/
theorem resultFields_of_compile {d : Document} {c : Compiled} (hc : d.compile = .ok c)
    {s : Service} (hs : s ∈ d.services) {f : Function} (hf : f ∈ s.functions)
    (hway : f.oneway = false) : ∃ codec ∈ c.structs, codec.name = Service.resultName s.name f.name ∧
      codec.fields.map (·.name) = Service.successField :: f.throws.map (·.name) := by
  have hresult := Service.carrier_mem hs hf (Service.resultStruct_mem s.name hway)
  obtain ⟨codec, hcodec, hnamed⟩ := Steps.forall₂_mem_left (namedAs_of_compile hc) hresult
  refine ⟨codec, hcodec, hnamed.name_eq, ?_⟩
  rw [hnamed.names_eq]
  simp [Service.resultStruct]

/-- A decoded instance holds what construction leaves of the values that were received. -/
theorem get?_of_decode {c : Compiled} {s : Schema} (h : c.RealizesSchema s) {config : WireConfig}
    {name : String} {input rest : Bytes} {v : StructValue}
    (hv : Machine.decode c config name input = .ok v rest) :
    ∃ r, s.record? name = some r ∧ ∃ received,
      Reading.fields (r.readField config
        (s.readWithin Record.built config (config.maxDepth - 1))) [] input = .ok received rest ∧
      ∀ field, v.get? field = r.settled received field := by
  rw [Machine.decode, Machine.decodeWithin_eq h (Nat.le_refl _)] at hv
  rcases hdepth : config.maxDepth with _ | levels
  · rw [hdepth] at hv
    cases hv
  · rw [hdepth, Schema.readWithin] at hv
    rcases hr : s.record? name with _ | r
    · rw [hr] at hv
      cases hv
    · rw [hr] at hv
      obtain ⟨received, hreceived, hbuilt⟩ := Record.read_eq_ok_iff.mp hv
      obtain ⟨-, -, rfl⟩ := Record.built_eq_ok_iff.mp hbuilt
      exact ⟨r, rfl, received, hreceived, Machine.lookup_filled _ received⟩

end Compiled

/-- How the codecs of a document name their fields, and what becomes of the names. -/
structure Compiled.NamesFields (d : Document) (c : Compiled) : Prop where
  /-- Every codec has the fields of its struct, and their ids are distinct. -/
  named : List.Forall₂ StructCodec.NamedAs d.carriers c.structs
  /-- Names are distinct where the document has them so. -/
  distinct_iff : (∀ codec ∈ c.structs, (codec.fields.map (·.name)).Nodup) ↔ d.NamesDistinct
  /-- In an answer, this says that no declared exception has the name of another one or of the
  success slot. -/
  result_iff : ∀ s ∈ d.services, ∀ f ∈ s.functions, f.oneway = false → ∃ codec ∈ c.structs,
    codec.name = Service.resultName s.name f.name ∧
      ((codec.fields.map (·.name)).Nodup ↔
        Service.successField ∉ f.throws.map (·.name) ∧ (f.throws.map (·.name)).Nodup)
  /-- A decoded instance holds under a name what construction leaves there of what was received.
  Where names are distinct, all that was received stays. -/
  decoded : ∃ s, d.schema = .ok s ∧ ∀ config name input v rest,
    Machine.decode c config name input = .ok v rest → ∃ r, s.record? name = some r ∧
      ∃ received, Reading.fields (r.readField config
          (s.readWithin Record.built config (config.maxDepth - 1))) [] input =
          .ok received rest ∧
        (∀ field, v.get? field = r.settled received field) ∧
        ((r.members.map (·.name)).Nodup → ∀ m ∈ r.sent,
          v.get? m.name = (received.lookup m.name).or m.default)

/-- In a compiled document every codec has fields of distinct ids, but of distinct names only as the
document declares them. Of fields with one name, the first one takes what was received, and the last
default of the others takes its place. -/
theorem Document.fieldNames_of_compile {d : Document} {c : Compiled} (hc : d.compile = .ok c) :
    c.NamesFields d := by
  have hnamed := Compiled.namedAs_of_compile hc
  obtain ⟨s, hs, hrealizes⟩ := Compiled.realizes_of_compile hc
  refine ⟨hnamed, ⟨?_, ?_⟩, ?_, s, hs, ?_⟩
  · intro hall carrier hcarrier
    obtain ⟨codec, hcodec, h⟩ := Steps.forall₂_mem_left hnamed hcarrier
    exact h.names_eq ▸ hall codec hcodec
  · intro hall codec hcodec
    obtain ⟨carrier, hcarrier, h⟩ := Steps.forall₂_mem_right hnamed hcodec
    exact h.names_eq ▸ hall carrier hcarrier
  · intro x hx f hf hway
    obtain ⟨codec, hcodec, hname, hfields⟩ := Compiled.resultFields_of_compile hc hx hf hway
    refine ⟨codec, hcodec, hname, ?_⟩
    rw [hfields]
    exact List.nodup_cons
  · intro config name input v rest hv
    obtain ⟨r, hr, received, hreceived, hget⟩ := Compiled.get?_of_decode hrealizes hv
    refine ⟨r, hr, received, hreceived, hget, fun hnames m hm => ?_⟩
    rw [hget, Record.settled_of_nodup hnames received hm]

namespace Document

/-- A struct with two fields of one name, and a service that throws an exception under the name of
the success slot. -/
def gauges : Document := ⟨[
  .structLike .struct ⟨"Gauge", [⟨"level", some 1, .i32, .default, none, none⟩,
    ⟨"level", some 2, .i32, .default, some (.int 5), none⟩]⟩,
  .structLike .exception ⟨"Jam", []⟩,
  .service ⟨"Pump", none,
    [⟨"start", .i32, [], [⟨"success", some 1, .identifier "Jam", .default, none, none⟩], false⟩]⟩]⟩

/-- The codecs of the document with the gauge. -/
def gaugesCodecs : Compiled :=
  match gauges.compile with
  | .ok c => c
  | .error _ => ⟨[], []⟩

theorem compile_gauges : gauges.compile = .ok gaugesCodecs := rfl

theorem fieldNames_of_compile_gauges :
    gauges.compile = .ok gaugesCodecs ∧ gaugesCodecs.NamesFields gauges :=
  ⟨compile_gauges, fieldNames_of_compile compile_gauges⟩

/-- The document with the gauge is compiled. Two of its codecs have a name twice, and the level that
was received gives way to a default. -/
theorem received_lost_gauges : gauges.compile = .ok gaugesCodecs ∧ ¬ gauges.NamesDistinct ∧
    gaugesCodecs.structs.map (fun s => (s.name, s.fields.map (·.name))) =
      [("Gauge", ["level", "level"]), ("Jam", []), ("PumpStartArgs", []),
        ("PumpStartResult", ["success", "success"])] ∧
    Machine.decode gaugesCodecs {} "Gauge" [8, 0, 1, 0, 0, 0, 9, 0] =
      .ok ⟨"Gauge", [("level", .i32 5)]⟩ [] := by
  refine ⟨compile_gauges, ?_, rfl, rfl⟩
  intro hnames
  have hgauge := hnames _ List.mem_cons_self
  revert hgauge
  decide

end Document

end Thrift
