-- The structs that a document names. A type names structs only through identifiers, and an
-- identifier stands for a definition of the document, so in the schema of a document every struct
-- that a member names has a record.
import Thrift.Proofs.DirectDecode
import Thrift.Proofs.Methods

namespace Thrift

/-! ## Types -/

namespace SymbolTable

variable {t : SymbolTable} {name : String}

theorem mem_of_resolve {kind : StructKind} {d : StructLike}
    (h : t.resolve name = .ok (.structLike kind d)) : .structLike kind d ∈ t.definitions := by
  unfold resolve at h
  rcases hlookup : t.lookup name with _ | definition
  · rw [hlookup] at h
    cases h
  · rw [hlookup] at h
    cases definition with
    | structLike kind' d' =>
      cases h
      exact mem_of_lookup hlookup
    | typedef d' =>
      rcases hunder : t.underlying d' with cause | type <;> simp [hunder, Except.map] at h
    | _ => cases h

theorem resolve_of_resolveType {r : Resolved} (h : t.resolveType name = .ok r) :
    t.resolve name = .ok r := by
  obtain ⟨r', hr', h⟩ := Steps.except_bind_eq_ok_iff.mp h
  rw [hr']
  cases r' <;> cases h <;> rfl

/-- A name that stands for a struct stands for one that is defined. -/
theorem mem_of_shape {struct : String} (h : t.shape name = .ok (.struct struct)) :
    ∃ kind d, .structLike kind d ∈ t.definitions ∧ d.name = struct := by
  unfold shape at h
  rcases hr : t.resolveType name with cause | resolved
  · rw [hr] at h
    cases h
  · rw [hr] at h
    have hresolve := resolve_of_resolveType hr
    cases resolved with
    | structLike kind d =>
      cases h
      exact ⟨kind, d, mem_of_resolve hresolve, rfl⟩
    | _ => cases h

end SymbolTable

/-- The structs that the form of a type names are defined. -/
theorem FieldType.structs_of_formWithin {t : SymbolTable} {levels : Nat} {type : FieldType}
    {form : Form} (h : type.formWithin t levels = .ok form) :
    ∀ name ∈ form.structs, ∃ kind d, .structLike kind d ∈ t.definitions ∧ d.name = name := by
  induction levels generalizing type form with
  | zero => cases h
  | succ levels ih =>
    cases type with
    | identifier n =>
      obtain ⟨shape, hshape, h⟩ := Steps.except_bind_eq_ok_iff.mp h
      rcases shape with struct | _ | underlying
      · cases h
        intro name hname
        cases List.mem_singleton.mp hname
        exact SymbolTable.mem_of_shape hshape
      · cases h
        exact fun _ hname => absurd hname List.not_mem_nil
      · exact ih h
    | list element =>
      obtain ⟨inner, hinner, rfl⟩ := formWithin_list h
      intro name hname
      exact ih hinner name hname
    | set element =>
      obtain ⟨inner, hinner, rfl⟩ := formWithin_set h
      intro name hname
      exact ih hinner name hname
    | map key value =>
      obtain ⟨k, v, hk, hv, rfl⟩ := formWithin_map h
      intro name hname
      rcases List.mem_append.mp hname with hname | hname
      · exact ih hk name hname
      · exact ih hv name hname
    | _ =>
      cases h
      exact fun _ hname => absurd hname List.not_mem_nil

/-! ## Documents -/

/-- The records of a schema are those of the document's structs. -/
theorem Document.carrier_of_record {d : Document} {t : SymbolTable} {s : Schema}
    (ht : SymbolTable.ofDocument d = .ok t) (hs : d.schema = .ok s) {r : Record}
    (hr : r ∈ s.records) : ∃ carrier ∈ d.carriers, Record.ofDefinition t carrier = .ok r := by
  obtain ⟨t', ht', hrs⟩ := schema_eq_ok_iff.mp hs
  cases ht.symm.trans ht'
  exact Steps.forall₂_mem_right (Steps.mapM_eq_ok_iff.mp hrs) hr

/-- Every struct that a record of a compiled document names has a record. -/
theorem Document.closed_of_compile {d : Document} {t : SymbolTable} {c : Compiled} {s : Schema}
    (h : d.compile = .ok c) (ht : SymbolTable.ofDocument d = .ok t) (hs : d.schema = .ok s)
    (hrealizes : c.RealizesSchema s) : s.Closed := by
  intro r hr name hname
  obtain ⟨m, hm, hin⟩ := List.mem_flatMap.mp hname
  obtain ⟨carrier, -, hof⟩ := carrier_of_record ht hs hr
  obtain ⟨ms, hms, hof⟩ := Steps.except_bind_eq_ok_iff.mp hof
  cases hof
  obtain ⟨f, -, hf⟩ := Steps.forall₂_mem_right (Steps.mapM_eq_ok_iff.mp hms) hm
  obtain ⟨kind, struct, hdefined, rfl⟩ :=
    FieldType.structs_of_formWithin (Member.form_of_ofField hf) name hin
  have hcarrier : (kind, struct) ∈ d.carriers :=
    List.mem_append_left _ (SymbolTable.mem_structLikes ht hdefined)
  obtain ⟨r', -, hr'⟩ := record_of_carrier h ht hs hrealizes hcarrier
  exact ⟨r', hr'⟩

end Thrift
