-- The form of a type behind its typedefs, without a bound on their number. Everything that follows
-- a type within a bound finds this one form.
import Thrift.Proofs.Widening

namespace Thrift

/-! ## Identifiers -/

namespace SymbolTable

variable {t : SymbolTable} {name : String}

/-- An identifier that serves as a type stands for a struct, an enum or a typedef. -/
theorem resolveType_cases {x : Resolved} (h : t.resolveType name = .ok x) :
    (∃ kind d, t.lookup name = some (.structLike kind d) ∧ x = .structLike kind d) ∨
      (∃ d, t.lookup name = some (.enumeration d) ∧ x = .enumeration d) ∨
      ∃ d u, t.lookup name = some (.typedef d) ∧ t.underlying d = .ok u ∧ x = .typedef d u := by
  obtain ⟨r, hr, h⟩ := Steps.except_bind_eq_ok_iff.mp h
  unfold resolve at hr
  split at hr
  · cases hr
  · rename_i kind d hlookup
    cases hr
    cases h
    exact .inl ⟨kind, d, hlookup, rfl⟩
  · rename_i d hlookup
    cases hr
    cases h
    exact .inr (.inl ⟨d, hlookup, rfl⟩)
  · rename_i d hlookup
    rcases hu : t.underlying d with cause | u
    · rw [hu] at hr
      cases hr
    · rw [hu] at hr
      cases hr
      cases h
      exact .inr (.inr ⟨d, u, hlookup, hu, rfl⟩)
  · cases hr
    cases h
  · cases hr
    cases h

theorem resolveType_structLike {kind : StructKind} {d : StructLike}
    (h : t.lookup name = some (.structLike kind d)) :
    t.resolveType name = .ok (.structLike kind d) := by
  rw [resolveType, resolve, h]
  rfl

theorem resolveType_enumeration {d : Enumeration} (h : t.lookup name = some (.enumeration d)) :
    t.resolveType name = .ok (.enumeration d) := by
  rw [resolveType, resolve, h]
  rfl

theorem resolveType_typedef {d : Typedef} {u : FieldType} (h : t.lookup name = some (.typedef d))
    (hu : t.underlying d = .ok u) : t.resolveType name = .ok (.typedef d u) := by
  rw [resolveType, resolve, h]
  dsimp only
  rw [hu]
  rfl

theorem resolveType_of_typedef {d : Typedef} {x : Resolved} (hd : t.lookup name = some (.typedef d))
    (h : t.resolveType name = .ok x) : ∃ u, t.underlying d = .ok u ∧ x = .typedef d u := by
  rcases resolveType_cases h with ⟨kind, d', hd', -⟩ | ⟨d', hd', -⟩ | ⟨d', u, hd', hu, rfl⟩
  · cases hd.symm.trans hd'
  · cases hd.symm.trans hd'
  · cases hd.symm.trans hd'
    exact ⟨u, hu, rfl⟩

/-- What an identifier contributes to a type. -/
theorem shape_cases {x : Shape} (h : t.shape name = .ok x) :
    (∃ kind d, t.lookup name = some (.structLike kind d) ∧ x = .struct d.name) ∨
      (∃ d, t.lookup name = some (.enumeration d) ∧ x = .enumeration) ∨
      ∃ d u, t.lookup name = some (.typedef d) ∧ t.underlying d = .ok u ∧ x = .alias u := by
  unfold shape at h
  rcases hr : t.resolveType name with cause | resolved
  · rw [hr] at h
    cases h
  · rw [hr] at h
    rcases resolveType_cases hr with ⟨kind, d, hd, rfl⟩ | ⟨d, hd, rfl⟩ | ⟨d, u, hd, hu, rfl⟩
    · cases h
      exact .inl ⟨kind, d, hd, rfl⟩
    · cases h
      exact .inr (.inl ⟨d, hd, rfl⟩)
    · cases h
      exact .inr (.inr ⟨d, u, hd, hu, rfl⟩)

/-- The type is no identifier of a typedef. -/
def Final (t : SymbolTable) (type : FieldType) : Prop :=
  ∀ name, type = .identifier name → t.typedef? name = none

/-- Typedefs are followed to the last one. -/
theorem final_of_follow {levels : Nat} {passed : List String} {type u : FieldType}
    (h : t.follow levels passed type = .ok u) : t.Final u := by
  induction levels generalizing passed type with
  | zero => cases h
  | succ levels ih =>
    cases type with
    | identifier name =>
      rw [follow] at h
      rcases hd : t.typedef? name with _ | next
      · rw [hd] at h
        cases h
        rintro _ ⟨⟩
        exact hd
      · rw [hd] at h
        dsimp only at h
        split at h
        · cases h
        · exact ih h
    | _ =>
      cases h
      rintro _ ⟨⟩

end SymbolTable

/-! ## Forms -/

namespace FieldType

/-- The values of the type have the form, behind however many typedefs. -/
inductive HasForm (t : SymbolTable) : FieldType → Form → Prop
  | scalar {type : FieldType} {kind : ScalarKind} (h : type.scalar? = some kind) :
      HasForm t type (.scalar kind)
  | struct {name : String} {kind : StructKind} {d : StructLike}
      (h : t.lookup name = some (.structLike kind d)) :
      HasForm t (.identifier name) (.struct d.name)
  | enumeration {name : String} {d : Enumeration} (h : t.lookup name = some (.enumeration d)) :
      HasForm t (.identifier name) (.scalar .i32)
  | alias {name : String} {d : Typedef} {form : Form} (hd : t.lookup name = some (.typedef d))
      (h : HasForm t d.type form) : HasForm t (.identifier name) form
  | list {element : FieldType} {e : Form} (h : HasForm t element e) :
      HasForm t (.list element) (.list e)
  | set {element : FieldType} {e : Form} (h : HasForm t element e) :
      HasForm t (.set element) (.set e)
  | map {key element : FieldType} {k e : Form} (hk : HasForm t key k) (h : HasForm t element e) :
      HasForm t (.map key element) (.map k e)
  | void : HasForm t .void .void

variable {t : SymbolTable} {type : FieldType} {form form' : Form}

/-- A type has one form. -/
theorem HasForm.unique (h : HasForm t type form) (h' : HasForm t type form') : form = form' := by
  induction h generalizing form' with
  | @scalar type kind hk =>
    cases h' with
    | scalar hk' => rw [Option.some.inj (hk.symm.trans hk')]
    | _ => cases hk
  | struct hd =>
    cases h' with
    | scalar hk => cases hk
    | struct hd' => cases hd.symm.trans hd'; rfl
    | enumeration hd' => cases hd.symm.trans hd'
    | «alias» hd' _ => cases hd.symm.trans hd'
  | enumeration hd =>
    cases h' with
    | scalar hk => cases hk
    | struct hd' => cases hd.symm.trans hd'
    | enumeration _ => rfl
    | «alias» hd' _ => cases hd.symm.trans hd'
  | «alias» hd _ ih =>
    cases h' with
    | scalar hk => cases hk
    | struct hd' => cases hd.symm.trans hd'
    | enumeration hd' => cases hd.symm.trans hd'
    | «alias» hd' h' =>
      cases hd.symm.trans hd'
      exact ih h'
  | list _ ih =>
    cases h' with
    | scalar hk => cases hk
    | list h' => rw [ih h']
  | set _ ih =>
    cases h' with
    | scalar hk => cases hk
    | set h' => rw [ih h']
  | map _ _ ihk ih =>
    cases h' with
    | scalar hk => cases hk
    | map hk' h' => rw [ihk hk', ih h']
  | void =>
    cases h' with
    | scalar hk => cases hk
    | void => rfl

/-- A typedef has the form of its type. -/
theorem hasForm_alias_iff {name : String} {d : Typedef} (hd : t.lookup name = some (.typedef d)) :
    HasForm t (.identifier name) form ↔ HasForm t d.type form := by
  constructor
  · intro h
    cases h with
    | scalar hk => cases hk
    | struct hd' => cases hd.symm.trans hd'
    | enumeration hd' => cases hd.symm.trans hd'
    | «alias» hd' h =>
      cases hd.symm.trans hd'
      exact h
  · exact .alias hd

theorem hasForm_follow_iff {levels : Nat} {passed : List String} {u : FieldType}
    (h : t.follow levels passed type = .ok u) : HasForm t u form ↔ HasForm t type form := by
  induction levels generalizing passed type with
  | zero => cases h
  | succ levels ih =>
    cases type with
    | identifier name =>
      rw [SymbolTable.follow] at h
      rcases hd : t.typedef? name with _ | next
      · rw [hd] at h
        cases h
        rfl
      · rw [hd] at h
        dsimp only at h
        split at h
        · cases h
        · rw [ih h, hasForm_alias_iff (SymbolTable.typedef?_eq_some_iff.mp hd)]
    | _ =>
      cases h
      rfl

/-- What a typedef stands for in the end has its form. -/
theorem hasForm_underlying_iff {name : String} {d : Typedef} {u : FieldType}
    (hd : t.lookup name = some (.typedef d)) (hu : t.underlying d = .ok u) :
    HasForm t u form ↔ HasForm t (.identifier name) form := by
  rw [hasForm_follow_iff hu, hasForm_alias_iff hd]

theorem hasForm_of_formWithin {levels : Nat} (h : type.formWithin t levels = .ok form) :
    HasForm t type form := by
  induction levels generalizing type form with
  | zero => cases h
  | succ levels ih =>
    cases type with
    | identifier name =>
      rw [formWithin] at h
      obtain ⟨shape, hs, h⟩ := Steps.except_bind_eq_ok_iff.mp h
      rcases SymbolTable.shape_cases hs with ⟨kind, d, hd, rfl⟩ | ⟨d, hd, rfl⟩ | ⟨d, u, hd, hu, rfl⟩
      · cases h
        exact .struct hd
      · cases h
        exact .enumeration hd
      · exact (hasForm_underlying_iff hd hu).mp (ih h)
    | list element =>
      obtain ⟨e, he, rfl⟩ := formWithin_list h
      exact .list (ih he)
    | set element =>
      obtain ⟨e, he, rfl⟩ := formWithin_set h
      exact .set (ih he)
    | map key element =>
      obtain ⟨k, e, hk, he, rfl⟩ := formWithin_map h
      exact .map (ih hk) (ih he)
    | void =>
      cases h
      exact .void
    | _ =>
      cases h
      exact .scalar rfl

/-- The type of a declared exception has the form of a struct. -/
theorem hasForm_of_exceptionName {levels : Nat} {name : String}
    (h : Service.exceptionNameWithin t levels type = .ok name) : HasForm t type (.struct name) := by
  induction levels generalizing type with
  | zero => cases h
  | succ levels ih =>
    cases type with
    | identifier reference =>
      rw [Service.exceptionNameWithin] at h
      rcases hr : t.resolveType reference with cause | x
      · rw [hr] at h
        cases h
      · rw [hr] at h
        rcases SymbolTable.resolveType_cases hr with ⟨kind, d, hd, rfl⟩ | ⟨d, hd, rfl⟩ |
          ⟨d, u, hd, hu, rfl⟩
        · cases h
          exact .struct hd
        · cases h
        · exact (hasForm_underlying_iff hd hu).mp (ih h)
    | _ => cases h

end FieldType

end Thrift
