-- What a compiled document is made of: a codec for each struct that is sent, in their order and
-- under names that differ, and a table of methods for each service. A document compiles exactly
-- when all of these can be made.
import Thrift.Codec.Compile
import Thrift.Proofs.Schema
import Thrift.Proofs.Steps

namespace Thrift

/-- One more keeps the names distinct when it has none of theirs. -/
theorem nodup_map_concat {α β : Type} {f : α → β} {as : List α} {a : α} :
    ((as ++ [a]).map f).Nodup ↔ (as.map f).Nodup ∧ ∀ x ∈ as, f x ≠ f a := by
  rw [List.map_append, List.nodup_append]
  simp

theorem nodup_map_of_append {α β : Type} {f : α → β} {as bs : List α}
    (h : ((as ++ bs).map f).Nodup) : (as.map f).Nodup := by
  rw [List.map_append] at h
  exact (List.nodup_append.mp h).1

/-! ## Tables -/

namespace SymbolTable

theorem find?_isSome_iff {t : SymbolTable} {name : String} :
    (t.find? name).isSome = true ↔ ∃ x ∈ t.definitions, x.name = name := by
  rw [find?, List.find?_isSome]
  simp only [beq_iff_eq]

/-- A table takes definitions when no name comes twice. -/
theorem extend_eq_ok_iff {t r : SymbolTable} {ds : List Definition} (ht : t.names.Nodup) :
    t.extend ds = .ok r ↔ r.definitions = t.definitions ++ ds ∧ r.names.Nodup := by
  induction ds generalizing t with
  | nil =>
    rw [extend, List.append_nil]
    constructor
    · intro h
      cases h
      exact ⟨rfl, ht⟩
    · rintro ⟨hdefinitions, -⟩
      cases t
      cases r
      cases hdefinitions
      rfl
  | cons d ds ih =>
    have happend : t.definitions ++ d :: ds = (t.definitions ++ [d]) ++ ds := by simp
    rw [extend, happend]
    split
    · rename_i htaken
      obtain ⟨x, hx, hname⟩ := find?_isSome_iff.mp htaken
      constructor
      · intro h
        cases h
      · rintro ⟨hdefinitions, hnames⟩
        rw [names, hdefinitions] at hnames
        exact absurd hname ((nodup_map_concat.mp (nodup_map_of_append hnames)).2 x hx)
    · rename_i hfree
      have hdistinct : (SymbolTable.mk (t.definitions ++ [d])).names.Nodup :=
        nodup_map_concat.mpr ⟨ht, fun x hx hname => hfree (find?_isSome_iff.mpr ⟨x, hx, hname⟩)⟩
      exact ih hdistinct

/-- Documents have a table when each name is defined once and no typedef leads back to itself. -/
theorem ofDocuments_eq_ok_iff {ds : List Document} {t : SymbolTable} :
    ofDocuments ds = .ok t ↔ t.definitions = ds.flatMap (·.body.filterMap (·.definition?)) ∧
      t.names.Nodup ∧ t.cycle? = none := by
  unfold ofDocuments
  rw [Steps.except_bind_eq_ok_iff]
  have hempty : (SymbolTable.mk []).names.Nodup := List.nodup_nil
  constructor
  · rintro ⟨r, hr, h⟩
    obtain ⟨hdefinitions, hnames⟩ := (extend_eq_ok_iff hempty).mp hr
    split at h
    · cases h
    · rename_i hcycle
      cases h
      exact ⟨hdefinitions, hnames, hcycle⟩
  · rintro ⟨hdefinitions, hnames, hcycle⟩
    refine ⟨t, (extend_eq_ok_iff hempty).mpr ⟨hdefinitions, hnames⟩, ?_⟩
    rw [hcycle]
    rfl

/-- The table of a document holds what its statements define. -/
theorem definitions_of_document {d : Document} {t : SymbolTable} (h : ofDocument d = .ok t) :
    t.definitions = d.body.filterMap (·.definition?) := by
  rw [(ofDocuments_eq_ok_iff.mp h).1, List.flatMap_singleton]

/-- A document defines a name once. -/
theorem names_of_document {d : Document} {t : SymbolTable} (h : ofDocument d = .ok t) :
    (t.definitions.map (·.name)).Nodup := (ofDocuments_eq_ok_iff.mp h).2.1

end SymbolTable

/-! ## Codecs of structs -/

/-- The codec of a struct that is sent. -/
def StructCodec.ofCarrier (t : SymbolTable) (carrier : StructKind × StructLike) :
    Except CodegenError StructCodec := ofDefinition t carrier.1 carrier.2

/-- The structs that carry the calls of a service and their answers. -/
def Service.carriers (s : Service) : List (StructKind × StructLike) :=
  (s.functions.flatMap (structsOf s.name)).map fun struct => (.struct, struct)

namespace Service

theorem argsStruct_mem (service : String) (f : Function) :
    argsStruct service f ∈ structsOf service f := by
  unfold structsOf
  split
  · exact List.mem_singleton_self _
  · exact List.mem_cons_self

theorem resultStruct_mem (service : String) {f : Function} (h : f.oneway = false) :
    resultStruct service f ∈ structsOf service f := by
  simp [structsOf, h]

theorem carrier_mem {d : Document} {s : Service} {f : Function} {struct : StructLike}
    (hs : s ∈ d.services) (hf : f ∈ s.functions) (hstruct : struct ∈ structsOf s.name f) :
    (.struct, struct) ∈ d.carriers := by
  refine List.mem_append_right _ (List.mem_flatMap.mpr ⟨s, hs, ?_⟩)
  exact List.mem_map_of_mem (List.mem_flatMap.mpr ⟨f, hf, hstruct⟩)

end Service

namespace Compiled

/-- Codecs are added when no name comes twice. -/
theorem addStructs_eq_ok_iff {structs new r : List StructCodec}
    (hs : (structs.map (·.name)).Nodup) :
    addStructs structs new = .ok r ↔
      ((structs ++ new).map (·.name)).Nodup ∧ structs ++ new = r := by
  induction new generalizing structs with
  | nil =>
    rw [addStructs, List.append_nil, Except.ok.injEq]
    exact (and_iff_right hs).symm
  | cons s new ih =>
    have happend : structs ++ s :: new = (structs ++ [s]) ++ new := by simp
    rw [addStructs, happend]
    split
    · rename_i htaken
      obtain ⟨s', hs', hname⟩ := List.any_eq_true.mp htaken
      constructor
      · intro h
        cases h
      · rintro ⟨hnames, -⟩
        exact absurd (beq_iff_eq.mp hname)
          ((nodup_map_concat.mp (nodup_map_of_append hnames)).2 s' hs')
    · rename_i hfree
      refine ih (nodup_map_concat.mpr ⟨hs, fun s' hs' hname => ?_⟩)
      exact hfree (List.any_eq_true.mpr ⟨s', hs', beq_iff_eq.mpr hname⟩)

/-- Steps that each add the codecs of some structs add the codecs of all of them. -/
theorem foldlM_addStructs_eq_ok_iff {α : Type} {t : SymbolTable}
    {carry : α → List (StructKind × StructLike)} {as : List α} {structs r : List StructCodec}
    (hs : (structs.map (·.name)).Nodup) :
    as.foldlM (fun structs a => do addStructs structs (← (carry a).mapM (StructCodec.ofCarrier t)))
        structs = .ok r ↔
      ∃ new, (as.flatMap carry).mapM (StructCodec.ofCarrier t) = .ok new ∧
        ((structs ++ new).map (·.name)).Nodup ∧ structs ++ new = r := by
  induction as generalizing structs with
  | nil =>
    simp only [List.foldlM_nil, List.flatMap_nil, List.mapM_nil]
    constructor
    · intro h
      cases h
      exact ⟨[], rfl, by simpa using hs, by simp⟩
    · rintro ⟨new, hnew, -, rfl⟩
      cases hnew
      simp [pure, Except.pure]
  | cons a as ih =>
    simp only [List.foldlM_cons, List.flatMap_cons, List.mapM_append, Steps.except_bind_eq_ok_iff]
    constructor
    · rintro ⟨mid, ⟨codecs, hcodecs, hmid⟩, h⟩
      obtain ⟨hnames, rfl⟩ := (addStructs_eq_ok_iff hs).mp hmid
      obtain ⟨new, hnew, hall, rfl⟩ := (ih hnames).mp h
      rw [List.append_assoc] at hall ⊢
      exact ⟨codecs ++ new, ⟨codecs, hcodecs, new, hnew, rfl⟩, hall, rfl⟩
    · rintro ⟨_, ⟨codecs, hcodecs, new, hnew, ⟨⟩⟩, hall, hr⟩
      rw [← List.append_assoc] at hall hr
      have hnames := nodup_map_of_append hall
      refine ⟨structs ++ codecs, ⟨codecs, hcodecs, ?_⟩, (ih hnames).mpr ⟨new, hnew, hall, hr⟩⟩
      exact (addStructs_eq_ok_iff hs).mpr ⟨hnames, rfl⟩

theorem addDefinition_eq (t : SymbolTable) :
    addDefinition t = (fun structs d => do
      addStructs structs (← [d].mapM (StructCodec.ofCarrier t))) := by
  funext structs d
  simp [addDefinition, StructCodec.ofCarrier]

theorem addService_eq (t : SymbolTable) :
    addService t = (fun structs s => do
      addStructs structs (← s.carriers.mapM (StructCodec.ofCarrier t))) := by
  funext structs s
  rw [addService, Service.structCodecs, Service.carriers, List.mapM_map]
  rfl

/-- Codecs are made of a document and its table when each struct has one, under a name of its own,
and each service has its table of methods. -/
theorem ofSymbols_eq_ok_iff {t : SymbolTable} {d : Document} {c : Compiled} :
    ofSymbols t d = .ok c ↔
      d.carriers.mapM (StructCodec.ofCarrier t) = .ok c.structs ∧
        (c.structs.map (·.name)).Nodup ∧ d.services.mapM (Service.codec t) = .ok c.services := by
  have hempty : (([] : List StructCodec).map (·.name)).Nodup := List.nodup_nil
  have hcarriers : d.carriers = d.structLikes.flatMap (fun d => [d]) ++
      d.services.flatMap Service.carriers := by
    rw [List.flatMap_singleton']
    rfl
  unfold ofSymbols
  simp only [addDefinition_eq, addService_eq, Steps.except_bind_eq_ok_iff, hcarriers,
    List.mapM_append]
  constructor
  · rintro ⟨defined, hdefined, all, hall, services, hservices, h⟩
    cases h
    obtain ⟨new, hnew, hnames, rfl⟩ := (foldlM_addStructs_eq_ok_iff hempty).mp hdefined
    obtain ⟨more, hmore, hnames', rfl⟩ := (foldlM_addStructs_eq_ok_iff hnames).mp hall
    exact ⟨⟨new, hnew, more, hmore, rfl⟩, hnames', hservices⟩
  · obtain ⟨structs, services⟩ := c
    rintro ⟨⟨new, hnew, more, hmore, ⟨⟩⟩, hnames, hservices⟩
    have hfirst := nodup_map_of_append hnames
    refine ⟨new, (foldlM_addStructs_eq_ok_iff hempty).mpr ⟨new, hnew, hfirst, rfl⟩, ?_⟩
    refine ⟨new ++ more, (foldlM_addStructs_eq_ok_iff hfirst).mpr ⟨more, hmore, hnames, rfl⟩, ?_⟩
    exact ⟨services, hservices, rfl⟩

end Compiled

namespace Document

theorem compile_eq_ok_iff {d : Document} {c : Compiled} :
    d.compile = .ok c ↔
      ∃ t, SymbolTable.ofDocument d = .ok t ∧ Compiled.ofSymbols t d = .ok c := by
  unfold compile
  rcases ht : SymbolTable.ofDocument d with cause | t
  · simp
  · simp

theorem schema_eq_ok_iff {d : Document} {s : Schema} :
    d.schema = .ok s ↔ ∃ t, SymbolTable.ofDocument d = .ok t ∧
      d.carriers.mapM (Record.ofDefinition t) = .ok s.records := by
  unfold schema
  rcases ht : SymbolTable.ofDocument d with cause | t
  · simp
  · simp only [Steps.except_bind_eq_ok_iff, Except.ok.injEq, exists_eq_left']
    constructor
    · rintro ⟨records, hrecords, h⟩
      cases h
      exact hrecords
    · intro hrecords
      exact ⟨s.records, hrecords, rfl⟩

end Document

/-- No two structs of a compiled document have one name. -/
theorem Compiled.names_of_compile {d : Document} {c : Compiled} (h : d.compile = .ok c) :
    (c.structs.map (·.name)).Nodup := by
  obtain ⟨t, -, h⟩ := Document.compile_eq_ok_iff.mp h
  exact (ofSymbols_eq_ok_iff.mp h).2.1

end Thrift
