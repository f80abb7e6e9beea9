-- The order of declarations. A document may use what it defines further down, so its statements may
-- come in any order, and may be spread over documents in any way. What is made of them then comes
-- in another order and is else the same.
import Thrift.Proofs.Agreement
import Thrift.Proofs.Assembly
import Thrift.Proofs.Methods

namespace Thrift

/-! ## Tables -/

namespace SymbolTable

/-- Whether typedefs run in a circle does not depend on their order. -/
theorem cycle?_of_perm {t t' : SymbolTable} (h : t.definitions.Perm t'.definitions)
    (hagrees : t.Agrees t') (hcycle : t.cycle? = none) : t'.cycle? = none := by
  rw [cycle?, List.findSome?_eq_none_iff] at hcycle ⊢
  intro x hx
  have hnone := hcycle x (h.mem_iff.mpr hx)
  cases x with
  | typedef d =>
    dsimp only at hnone ⊢
    rw [← hagrees.size, ← hagrees.cycleBelow]
    exact hnone
  | _ => rfl

/-- The same statements give tables that agree, in whatever order and documents they come. -/
theorem ofDocuments_of_perm {ds ds' : List Document}
    (h : (ds.flatMap (·.body)).Perm (ds'.flatMap (·.body))) {t : SymbolTable}
    (ht : ofDocuments ds = .ok t) : ∃ t', ofDocuments ds' = .ok t' ∧ t.Agrees t' := by
  obtain ⟨hdefinitions, hnames, hcycle⟩ := ofDocuments_eq_ok_iff.mp ht
  let t' : SymbolTable := ⟨ds'.flatMap (·.body.filterMap (·.definition?))⟩
  have hperm : t.definitions.Perm t'.definitions := by
    have hfiltered := h.filterMap Statement.definition?
    rw [List.filterMap_flatMap, List.filterMap_flatMap] at hfiltered
    rw [hdefinitions]
    exact hfiltered
  have hagrees := agrees_of_perm hperm hnames
  have hnames' : t'.names.Nodup := (hperm.map _).nodup_iff.mp hnames
  exact ⟨t', ofDocuments_eq_ok_iff.mpr ⟨rfl, hnames', cycle?_of_perm hperm hagrees hcycle⟩, hagrees⟩

end SymbolTable

/-! ## Documents -/

namespace Document

theorem carriers_perm {d d' : Document} (h : d.body.Perm d'.body) :
    d.carriers.Perm d'.carriers :=
  (h.filterMap _).append ((h.filterMap _).flatMap_right _)

/-- A document compiles in any order of its statements, to the same codecs in another order. -/
theorem compile_of_perm {d d' : Document} (h : d.body.Perm d'.body) {c : Compiled}
    (hc : d.compile = .ok c) : ∃ c', d'.compile = .ok c' ∧ c'.structs.Perm c.structs ∧
      c'.services.Perm c.services := by
  obtain ⟨t, ht, hc⟩ := compile_eq_ok_iff.mp hc
  obtain ⟨hstructs, hnames, hservices⟩ := Compiled.ofSymbols_eq_ok_iff.mp hc
  have hbodies : ([d].flatMap (·.body)).Perm ([d'].flatMap (·.body)) := by simpa using h
  obtain ⟨t', ht', hagrees⟩ := SymbolTable.ofDocuments_of_perm hbodies ht
  have hcarrier : StructCodec.ofCarrier t = StructCodec.ofCarrier t' :=
    funext fun carrier => hagrees.ofDefinition carrier.1 carrier.2
  have hservice : Service.codec t = Service.codec t' := funext hagrees.codec
  obtain ⟨structs, hstructs', hperm⟩ := Steps.mapM_perm (carriers_perm h) hstructs
  obtain ⟨services, hservices', hperm'⟩ := Steps.mapM_perm (h.filterMap _) hservices
  rw [hcarrier] at hstructs'
  rw [hservice] at hservices'
  have hnames' : (structs.map (·.name)).Nodup := (hperm.map _).nodup_iff.mpr hnames
  refine ⟨⟨structs, services⟩, compile_eq_ok_iff.mpr ⟨t', ht', ?_⟩, hperm, hperm'⟩
  exact Compiled.ofSymbols_eq_ok_iff.mpr ⟨hstructs', hnames', hservices'⟩

/-- The order of declarations does not matter. A document compiles in any order of its statements
or in none, and its codecs are the same up to their order. Documents with the same statements have
a table or none has, and what a name stands for in one of these tables it stands for in all. -/
theorem order_irrelevant :
    (∀ d d' : Document, d.body.Perm d'.body →
      ((∃ c, d.compile = .ok c) ↔ ∃ c', d'.compile = .ok c') ∧
        ∀ c c', d.compile = .ok c → d'.compile = .ok c' →
          c.structs.Perm c'.structs ∧ c.services.Perm c'.services) ∧
      ∀ ds ds' : List Document, (ds.flatMap (·.body)).Perm (ds'.flatMap (·.body)) →
        ((∃ t, SymbolTable.ofDocuments ds = .ok t) ↔ ∃ t', SymbolTable.ofDocuments ds' = .ok t') ∧
          ∀ t t', SymbolTable.ofDocuments ds = .ok t → SymbolTable.ofDocuments ds' = .ok t' →
            ∀ name, t.lookup name = t'.lookup name ∧
              (∀ x, t.resolve name = .ok x ↔ t'.resolve name = .ok x) ∧
              (∀ x, t.resolveType name = .ok x ↔ t'.resolveType name = .ok x) ∧
              ∀ v, t.enumMember name = .ok v ↔ t'.enumMember name = .ok v := by
  constructor
  · intro d d' h
    have hcompiles : ∀ {d d' : Document}, d.body.Perm d'.body → (∃ c, d.compile = .ok c) →
        ∃ c', d'.compile = .ok c' := by
      rintro d d' h ⟨c, hc⟩
      obtain ⟨c', hc', -⟩ := compile_of_perm h hc
      exact ⟨c', hc'⟩
    refine ⟨⟨hcompiles h, hcompiles h.symm⟩, fun c c' hc hc' => ?_⟩
    obtain ⟨_, hfound, hstructs, hservices⟩ := compile_of_perm h hc
    cases hfound.symm.trans hc'
    exact ⟨hstructs.symm, hservices.symm⟩
  · intro ds ds' h
    have hbuilds : ∀ {ds ds' : List Document},
        (ds.flatMap (·.body)).Perm (ds'.flatMap (·.body)) →
          (∃ t, SymbolTable.ofDocuments ds = .ok t) →
            ∃ t', SymbolTable.ofDocuments ds' = .ok t' := by
      rintro ds ds' h ⟨t, ht⟩
      obtain ⟨t', ht', -⟩ := SymbolTable.ofDocuments_of_perm h ht
      exact ⟨t', ht'⟩
    refine ⟨⟨hbuilds h, hbuilds h.symm⟩, fun t t' ht ht' name => ?_⟩
    obtain ⟨_, hfound, hagrees⟩ := SymbolTable.ofDocuments_of_perm h ht
    cases hfound.symm.trans ht'
    rw [hagrees.resolve, hagrees.resolveType, hagrees.enumMember]
    exact ⟨hagrees.lookup name, fun _ => .rfl, fun _ => .rfl, fun _ => .rfl⟩

/-- The small document with the service first, which uses what comes behind it. -/
def libraryBackwards : Document := ⟨library.body.reverse⟩

/-- The statements of the small document in a document each. -/
def libraryInParts : List Document := library.body.map fun statement => ⟨[statement]⟩

/-- The codecs of the small document come in another order when it is told backwards, and a name
stands for the same wherever it is defined. -/
theorem order_irrelevant_library :
    (∃ c, libraryBackwards.compile = .ok c ∧ libraryCodecs.structs.Perm c.structs ∧
      libraryCodecs.services.Perm c.services) ∧
      ∃ t t', SymbolTable.ofDocuments [libraryBackwards] = .ok t ∧
        SymbolTable.ofDocuments libraryInParts = .ok t' ∧
          t'.resolveType "Missing" = .ok (.structLike .exception
            ⟨"Missing", [⟨"title", some 1, .string, .default, none, none⟩]⟩) := by
  have hbody : library.body.Perm libraryBackwards.body := (List.reverse_perm _).symm
  have hbodies : ([libraryBackwards].flatMap (·.body)).Perm (libraryInParts.flatMap (·.body)) :=
    List.reverse_perm library.body
  obtain ⟨hcompile, htable⟩ := order_irrelevant
  constructor
  · obtain ⟨hexists, hsame⟩ := hcompile library libraryBackwards hbody
    obtain ⟨c, hc⟩ := hexists.mp ⟨libraryCodecs, compile_library⟩
    exact ⟨c, hc, hsame libraryCodecs c compile_library hc⟩
  · obtain ⟨hexists, hsame⟩ := htable [libraryBackwards] libraryInParts hbodies
    have ht : SymbolTable.ofDocuments [libraryBackwards] =
        .ok ⟨libraryBackwards.body.filterMap (·.definition?)⟩ := rfl
    obtain ⟨t', ht'⟩ := hexists.mp ⟨_, ht⟩
    obtain ⟨-, -, htypes, -⟩ := hsame _ t' ht ht' "Missing"
    exact ⟨_, t', ht, ht', (htypes _).mp rfl⟩

end Document

end Thrift
