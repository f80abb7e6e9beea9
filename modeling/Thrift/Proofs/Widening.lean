-- Tables of definitions that know more. What a table says about a type, and the value that it gives
-- to a default, stays when definitions of types join it and a struct gets more fields, as long as
-- no name comes to stand for something else.
import Thrift.Proofs.Closure
import Thrift.Proofs.Pruning

namespace Thrift

/-! ## Definitions -/

/-- The second struct has each field of the first one under its name, and maybe others. -/
structure StructLike.Widens (o : Omission) (d d' : StructLike) : Prop where
  name_eq : d'.name = d.name
  kept : ∀ f ∈ d.fields, o d.name f.name = false
  found : ∀ key f, d.fields.find? (·.name == key) = some f →
    d'.fields.find? (·.name == key) = some f

inductive Definition.Widens (o : Omission) : Definition → Definition → Prop
  | structLike {kind : StructKind} {d d' : StructLike} (h : d.Widens o d') :
      Widens o (.structLike kind d) (.structLike kind d')
  | enumeration (d : Enumeration) : Widens o (.enumeration d) (.enumeration d)
  | typedef (d : Typedef) : Widens o (.typedef d) (.typedef d)
  | constant (d : Constant) : Widens o (.constant d) (.constant d)
  | service (d : Service) : Widens o (.service d) (.service d)

/-- What an identifier stands for as a type, in the first table and in the second one. -/
inductive Resolved.Widens (o : Omission) : Resolved → Resolved → Prop
  | structLike {kind : StructKind} {d d' : StructLike} (h : d.Widens o d') :
      Widens o (.structLike kind d) (.structLike kind d')
  | enumeration (d : Enumeration) : Widens o (.enumeration d) (.enumeration d)
  | typedef (d : Typedef) (underlying : FieldType) :
      Widens o (.typedef d underlying) (.typedef d underlying)

namespace SymbolTable

/-- What a name stands for in the first table it stands for in the second one, up to more fields.
No name comes to stand for a constant. -/
structure Widens (o : Omission) (t t' : SymbolTable) : Prop where
  lookup : ∀ name x, t.lookup name = some x → ∃ y, t'.lookup name = some y ∧ x.Widens o y
  constant : ∀ name d, t'.lookup name = some (.constant d) → t.lookup name = some (.constant d)
  size_le : t.size ≤ t'.size

/-- The type stands for something, if it is an identifier at all. -/
def Names (t : SymbolTable) (type : FieldType) : Prop :=
  ∀ name, type = .identifier name → ∃ x, t.lookup name = some x

theorem typedef?_eq_some_iff {t : SymbolTable} {name : String} {d : Typedef} :
    t.typedef? name = some d ↔ t.lookup name = some (.typedef d) := by
  unfold typedef?
  split
  · rename_i d' h
    rw [h]
    simp
  · rename_i h
    exact iff_of_false (by simp) (h d)

theorem lookup_of_resolve {t : SymbolTable} {name : String} {x : Resolved}
    (h : t.resolve name = .ok x) : ∃ y, t.lookup name = some y := by
  unfold resolve at h
  rcases hlookup : t.lookup name with _ | y
  · rw [hlookup] at h
    cases h
  · exact ⟨y, rfl⟩

theorem lookup_of_resolveType {t : SymbolTable} {name : String} {x : Resolved}
    (h : t.resolveType name = .ok x) : ∃ y, t.lookup name = some y := by
  obtain ⟨y, hy, -⟩ := Steps.except_bind_eq_ok_iff.mp h
  exact lookup_of_resolve hy

theorem lookup_of_shape {t : SymbolTable} {name : String} {x : Shape} (h : t.shape name = .ok x) :
    ∃ y, t.lookup name = some y := by
  unfold shape at h
  rcases hr : t.resolveType name with cause | y
  · rw [hr] at h
    cases h
  · exact lookup_of_resolveType hr

namespace Widens

variable {o : Omission} {t t' : SymbolTable} (h : t.Widens o t')

include h

theorem typedef? {name : String} {d : Typedef} (hd : t.typedef? name = some d) :
    t'.typedef? name = some d := by
  rw [typedef?_eq_some_iff] at hd ⊢
  obtain ⟨y, hy, hwidens⟩ := h.lookup name _ hd
  cases hwidens
  exact hy

/-- A name that stands for something else than a typedef does so in the second table. -/
theorem typedef?_none {name : String} (hname : ∃ x, t.lookup name = some x)
    (hd : t.typedef? name = none) : t'.typedef? name = none := by
  obtain ⟨x, hx⟩ := hname
  obtain ⟨y, hy, hwidens⟩ := h.lookup name x hx
  rw [Option.eq_none_iff_forall_ne_some]
  intro d hd'
  rw [typedef?_eq_some_iff, hy] at hd'
  cases hd'
  cases hwidens
  rw [typedef?_eq_some_iff.mpr hx] at hd
  cases hd

/-- A chain of typedefs that ends at a type that stands for something ends there too. -/
theorem follow {levels levels' : Nat} (hl : levels ≤ levels') {passed : List String}
    {type u : FieldType} (hf : t.follow levels passed type = .ok u) (hu : t.Names u) :
    t'.follow levels' passed type = .ok u := by
  induction levels generalizing levels' passed type with
  | zero => cases hf
  | succ levels ih =>
    obtain ⟨levels', rfl⟩ := Nat.exists_eq_add_of_le' (Nat.le_trans (Nat.le_add_left 1 levels) hl)
    cases type with
    | identifier name =>
      rw [SymbolTable.follow] at hf ⊢
      rcases hd : t.typedef? name with _ | next
      · rw [hd] at hf
        cases hf
        rw [h.typedef?_none (hu name rfl) hd]
      · rw [hd] at hf
        rw [h.typedef? hd]
        dsimp only at hf ⊢
        by_cases hpassed : next.name ∈ passed
        · rw [if_pos hpassed] at hf
          cases hf
        · rw [if_neg hpassed] at hf ⊢
          exact ih (by omega) hf
    | _ => exact hf

theorem resolve {name : String} {x : Resolved} (hx : t.resolve name = .ok x)
    (hu : ∀ d u, x = .typedef d u → t.Names u) :
    (∃ y, t'.resolve name = .ok y ∧ x.Widens o y) ∨ (∃ d, x = .constant d) ∨
      ∃ d, x = .service d := by
  unfold SymbolTable.resolve at hx ⊢
  rcases hlookup : t.lookup name with _ | definition
  · rw [hlookup] at hx
    cases hx
  · obtain ⟨y, hy, hwidens⟩ := h.lookup name definition hlookup
    rw [hlookup] at hx
    rw [hy]
    cases hwidens with
    | structLike hd =>
      cases hx
      exact .inl ⟨_, rfl, .structLike hd⟩
    | enumeration d =>
      cases hx
      exact .inl ⟨_, rfl, .enumeration d⟩
    | typedef d =>
      dsimp only at hx ⊢
      rcases hunder : t.underlying d with cause | u
      · rw [hunder] at hx
        cases hx
      · rw [hunder] at hx
        cases hx
        have hl : t.size + 1 ≤ t'.size + 1 := Nat.add_le_add_right h.size_le 1
        have hfollow := h.follow hl hunder (hu d u rfl)
        rw [underlying, hfollow]
        exact .inl ⟨_, rfl, .typedef d u⟩
    | constant d =>
      cases hx
      exact .inr (.inl ⟨d, rfl⟩)
    | service d =>
      cases hx
      exact .inr (.inr ⟨d, rfl⟩)

theorem resolveType {name : String} {x : Resolved} (hx : t.resolveType name = .ok x)
    (hu : ∀ d u, x = .typedef d u → t.Names u) :
    ∃ y, t'.resolveType name = .ok y ∧ x.Widens o y := by
  have hresolve := resolve_of_resolveType hx
  unfold SymbolTable.resolveType at hx ⊢
  rcases h.resolve hresolve hu with ⟨y, hy, hwidens⟩ | ⟨d, rfl⟩ | ⟨d, rfl⟩
  · rw [hy]
    cases hwidens with
    | structLike hd => exact ⟨_, rfl, .structLike hd⟩
    | enumeration d => exact ⟨_, rfl, .enumeration d⟩
    | typedef d u => exact ⟨_, rfl, .typedef d u⟩
  · rw [hresolve] at hx
    cases hx
  · rw [hresolve] at hx
    cases hx

theorem shape {name : String} {x : Shape} (hx : t.shape name = .ok x)
    (hu : ∀ u, x = .alias u → t.Names u) : t'.shape name = .ok x := by
  unfold SymbolTable.shape at hx ⊢
  rcases hr : t.resolveType name with cause | resolved
  · rw [hr] at hx
    cases hx
  · rw [hr] at hx
    have hnames : ∀ d u, resolved = .typedef d u → t.Names u := by
      rintro d u rfl
      cases hx
      exact hu u rfl
    obtain ⟨y, hy, hwidens⟩ := h.resolveType hr hnames
    rw [hy]
    cases hwidens with
    | structLike hd =>
      dsimp only at hx ⊢
      rw [hd.name_eq, hx]
    | enumeration d => exact hx
    | typedef d u => exact hx

end Widens

end SymbolTable

/-! ## Types -/

namespace FieldType

theorem names_of_wireTypeWithin {t : SymbolTable} {levels : Nat} {type : FieldType} {w : WireType}
    (h : type.wireTypeWithin t levels = .ok w) : t.Names type := by
  rintro name rfl
  cases levels with
  | zero => cases h
  | succ levels =>
    obtain ⟨x, hx, -⟩ := Steps.except_bind_eq_ok_iff.mp h
    exact SymbolTable.lookup_of_shape hx

theorem names_of_formWithin {t : SymbolTable} {levels : Nat} {type : FieldType} {form : Form}
    (h : type.formWithin t levels = .ok form) : t.Names type := by
  rintro name rfl
  cases levels with
  | zero => cases h
  | succ levels =>
    obtain ⟨x, hx, -⟩ := Steps.except_bind_eq_ok_iff.mp h
    exact SymbolTable.lookup_of_shape hx

variable {o : Omission} {t t' : SymbolTable} (h : t.Widens o t')

include h

theorem wireTypeWithin_widens {levels : Nat} {type : FieldType} {w : WireType}
    (hw : type.wireTypeWithin t levels = .ok w) : type.wireTypeWithin t' levels = .ok w := by
  induction levels generalizing type with
  | zero => cases hw
  | succ levels ih =>
    cases type with
    | identifier name =>
      obtain ⟨x, hx, hw⟩ := Steps.except_bind_eq_ok_iff.mp hw
      apply Steps.except_bind_eq_ok_iff.mpr
      cases x with
      | struct struct => exact ⟨_, h.shape hx (by rintro u ⟨⟩), hw⟩
      | enumeration => exact ⟨_, h.shape hx (by rintro u ⟨⟩), hw⟩
      | «alias» underlying =>
        refine ⟨_, h.shape hx ?_, ih hw⟩
        rintro u ⟨⟩
        exact names_of_wireTypeWithin hw
    | _ => exact hw

theorem elementType_widens {container element : FieldType} {w : WireType}
    (hw : container.elementType t element = .ok w) : container.elementType t' element = .ok w := by
  obtain ⟨e, he, hw⟩ := Steps.except_bind_eq_ok_iff.mp hw
  exact Steps.except_bind_eq_ok_iff.mpr ⟨e, wireTypeWithin_widens h he, hw⟩

theorem discard_elementType_widens {container element : FieldType}
    (hw : (discard (container.elementType t element) : Except CodegenError Unit) = .ok ()) :
    (discard (container.elementType t' element) : Except CodegenError Unit) = .ok () := by
  rcases he : container.elementType t element with cause | w
  · rw [he] at hw
    cases hw
  · rw [elementType_widens h he]
    rfl

/-- The form of a type stays. -/
theorem formWithin_widens {levels : Nat} {type : FieldType} {form : Form}
    (hf : type.formWithin t levels = .ok form) : type.formWithin t' levels = .ok form := by
  induction levels generalizing type form with
  | zero => cases hf
  | succ levels ih =>
    cases type with
    | identifier name =>
      obtain ⟨x, hx, hf⟩ := Steps.except_bind_eq_ok_iff.mp hf
      apply Steps.except_bind_eq_ok_iff.mpr
      cases x with
      | struct struct => exact ⟨_, h.shape hx (by rintro u ⟨⟩), hf⟩
      | enumeration => exact ⟨_, h.shape hx (by rintro u ⟨⟩), hf⟩
      | «alias» underlying =>
        refine ⟨_, h.shape hx ?_, ih hf⟩
        rintro u ⟨⟩
        exact names_of_formWithin hf
    | list element =>
      obtain ⟨⟨⟩, he, hf⟩ := Steps.except_bind_eq_ok_iff.mp hf
      obtain ⟨inner, hinner, hf⟩ := Steps.except_bind_eq_ok_iff.mp hf
      apply Steps.except_bind_eq_ok_iff.mpr
      refine ⟨_, discard_elementType_widens h he, ?_⟩
      exact Steps.except_bind_eq_ok_iff.mpr ⟨inner, ih hinner, hf⟩
    | set element =>
      obtain ⟨⟨⟩, he, hf⟩ := Steps.except_bind_eq_ok_iff.mp hf
      obtain ⟨inner, hinner, hf⟩ := Steps.except_bind_eq_ok_iff.mp hf
      apply Steps.except_bind_eq_ok_iff.mpr
      refine ⟨_, discard_elementType_widens h he, ?_⟩
      exact Steps.except_bind_eq_ok_iff.mpr ⟨inner, ih hinner, hf⟩
    | map key value =>
      obtain ⟨⟨⟩, hk, hf⟩ := Steps.except_bind_eq_ok_iff.mp hf
      obtain ⟨⟨⟩, hv, hf⟩ := Steps.except_bind_eq_ok_iff.mp hf
      obtain ⟨k, hkey, hf⟩ := Steps.except_bind_eq_ok_iff.mp hf
      obtain ⟨v, hvalue, hf⟩ := Steps.except_bind_eq_ok_iff.mp hf
      apply Steps.except_bind_eq_ok_iff.mpr
      refine ⟨_, discard_elementType_widens h hk, ?_⟩
      apply Steps.except_bind_eq_ok_iff.mpr
      refine ⟨_, discard_elementType_widens h hv, ?_⟩
      apply Steps.except_bind_eq_ok_iff.mpr
      refine ⟨k, ih hkey, ?_⟩
      exact Steps.except_bind_eq_ok_iff.mpr ⟨v, ih hvalue, hf⟩
    | _ => exact hf

end FieldType

/-! ## Defaults -/

namespace Literal

/-- Lowers a literal that is no reference, where the argument lowers what is inside of it. -/
def Place.lowerPlain (p : Place) (lower : Literal → FieldType → Except CodegenError Value)
    (l : Literal) : FieldType → Except CodegenError Value
  | .bool => p.asBool l
  | .byte => p.asByte l
  | .i8 => p.asByte l
  | .i16 => p.asI16 l
  | .i32 => p.asI32 l
  | .i64 => p.asI64 l
  | .double => p.asDouble l
  | .string => p.asString l
  | .binary => p.asBinary l
  | .list element => do
    return .list (← p.asItems (fun item => lower item element) (.list element) l)
  | .set element => do
    return .set (← p.asItems (fun item => lower item element) (.set element) l)
  | .map key element =>
    p.asMap (fun k => lower k key) (fun v => lower v element) (.map key element) l
  | .identifier name =>
    match p.symbols.resolveType name with
    | .error cause => .error (.resolve cause)
    | .ok (.typedef _ underlying) => lower l underlying
    | .ok (.enumeration _) => p.asEnum l
    | .ok (.structLike _ d) => p.asStruct lower d l
    | .ok (.constant d) => .error (.resolve (.typeMisuse d.name .value))
    | .ok (.service d) => .error (.resolve (.typeMisuse d.name .service))
  | .void => p.refuse .voidSlot

/-- The literal is no reference. -/
def IsPlain (l : Literal) : Prop := ∀ reference, l ≠ .identifier reference

theorem lowerWithin_of_plain {l : Literal} (hl : l.IsPlain) (p : Place) (levels : Nat)
    (type : FieldType) :
    lowerWithin p (levels + 1) l type = p.lowerPlain (lowerWithin p levels) l type := by
  cases l with
  | identifier reference => exact absurd rfl (hl reference)
  | _ => cases type <;> rfl

theorem names_of_lowerWithin {t : SymbolTable} {field : String} {levels : Nat} {l : Literal}
    (hl : l.IsPlain) {type : FieldType} {v : Value}
    (h : lowerWithin ⟨t, field⟩ levels l type = .ok v) : t.Names type := by
  rintro name rfl
  cases levels with
  | zero => cases h
  | succ levels =>
    rw [lowerWithin_of_plain hl, Place.lowerPlain] at h
    rcases hr : t.resolveType name with cause | x
    · rw [hr] at h
      cases h
    · exact SymbolTable.lookup_of_resolveType hr

variable {o : Omission} {v : Value}

theorem without_of_bind {α : Type} {x : Except CodegenError α} {f : α → Value}
    (hf : ∀ a, (f a).without o = f a) (h : (x >>= fun a => pure (f a)) = .ok v) :
    v.without o = v := by
  obtain ⟨a, -, ha⟩ := Steps.except_bind_eq_ok_iff.mp h
  cases ha
  exact hf a

theorem asBool_without {p : Place} {l : Literal} (h : p.asBool l = .ok v) : v.without o = v := by
  unfold Place.asBool at h
  split at h
  · cases h
    simp [Value.without]
  · split at h
    · cases h
      simp [Value.without]
    · split at h
      · cases h
        simp [Value.without]
      · cases h
  · cases h

theorem asDouble_without {p : Place} {l : Literal} (h : p.asDouble l = .ok v) :
    v.without o = v := by
  unfold Place.asDouble at h
  split at h
  · cases h
    simp [Value.without]
  · cases h
    simp [Value.without]
  · cases h

theorem asString_without {p : Place} {l : Literal} (h : p.asString l = .ok v) :
    v.without o = v := by
  unfold Place.asString at h
  split at h
  · cases h
    simp [Value.without]
  · cases h

theorem asBinary_without {p : Place} {l : Literal} (h : p.asBinary l = .ok v) :
    v.without o = v := by
  unfold Place.asBinary at h
  split at h
  · cases h
    simp [Value.without]
  · cases h

/-- The second way of lowering gives what the first one gives, with nothing in it that is left
out. -/
def Carries (o : Omission) (lower lower' : Literal → FieldType → Except CodegenError Value) :
    Prop :=
  ∀ l type v, lower l type = .ok v → lower' l type = .ok v ∧ v.without o = v

variable {lower lower' : Literal → FieldType → Except CodegenError Value} {t t' : SymbolTable}
  {field : String} (hl : Carries o lower lower')

include hl

theorem asItems_carries {element type : FieldType} {l : Literal} {vs : List Value}
    (h : Place.asItems ⟨t, field⟩ (fun item => lower item element) type l = .ok vs) :
    Place.asItems ⟨t', field⟩ (fun item => lower' item element) type l = .ok vs ∧
      Value.itemsWithout o vs = vs := by
  unfold Place.asItems at h ⊢
  split at h
  · obtain ⟨hitems, hvs⟩ := Steps.mapM_ok_of (fun item v hv => hl item element v hv) h
    exact ⟨hitems, Value.itemsWithout_eq_self hvs⟩
  · cases h

theorem asMap_carries {key element type : FieldType} {l : Literal}
    (h : Place.asMap ⟨t, field⟩ (fun k => lower k key) (fun v => lower v element) type l = .ok v) :
    Place.asMap ⟨t', field⟩ (fun k => lower' k key) (fun v => lower' v element) type l = .ok v ∧
      v.without o = v := by
  unfold Place.asMap at h ⊢
  split at h
  · obtain ⟨es, hes, h⟩ := Steps.except_bind_eq_ok_iff.mp h
    cases h
    have hentry : ∀ (entry : Literal × Literal) (e : Value × Value),
        (do return (← lower entry.1 key, ← lower entry.2 element)) = Except.ok e →
          (do return (← lower' entry.1 key, ← lower' entry.2 element)) =
              (Except.ok e : Except CodegenError (Value × Value)) ∧
            e.1.without o = e.1 ∧ e.2.without o = e.2 := by
      intro entry e he
      obtain ⟨k, hk, he⟩ := Steps.except_bind_eq_ok_iff.mp he
      obtain ⟨w, hw, he⟩ := Steps.except_bind_eq_ok_iff.mp he
      cases he
      obtain ⟨hk', hkey⟩ := hl entry.1 key k hk
      obtain ⟨hw', hvalue⟩ := hl entry.2 element w hw
      rw [hk', hw']
      exact ⟨rfl, hkey, hvalue⟩
    obtain ⟨hes', hwithout⟩ := Steps.mapM_ok_of hentry hes
    refine ⟨Steps.except_bind_eq_ok_iff.mpr ⟨es, hes', rfl⟩, ?_⟩
    rw [Value.without, Value.entriesWithout_eq_self hwithout]
  · cases h

/-- A struct literal sets fields that are kept, in order. -/
theorem setFields_carries {d d' : StructLike} (hd : d.Widens o d')
    {entries : List (Literal × Literal)} {built r : StructValue} (hname : built.name = d.name)
    (hsorted : Fields.Sorted built.fields)
    (hbuilt : Value.fieldsWithout o d.name built.fields = built.fields)
    (h : entries.foldlM (Place.setField ⟨t, field⟩ lower d) built = .ok r) :
    entries.foldlM (Place.setField ⟨t', field⟩ lower' d') built = .ok r ∧ r.name = d.name ∧
      Value.fieldsWithout o d.name r.fields = r.fields := by
  induction entries generalizing built with
  | nil =>
    cases h
    exact ⟨rfl, hname, hbuilt⟩
  | cons entry entries ih =>
    obtain ⟨literal, value⟩ := entry
    rw [List.foldlM_cons] at h ⊢
    obtain ⟨next, hnext, h⟩ := Steps.except_bind_eq_ok_iff.mp h
    unfold Place.setField at hnext
    cases literal with
    | string key =>
      dsimp only at hnext
      rcases hfield : d.fields.find? (·.name == key) with _ | f
      · rw [hfield] at hnext
        cases hnext
      · rw [hfield] at hnext
        obtain ⟨v, hv, hnext⟩ := Steps.except_bind_eq_ok_iff.mp hnext
        cases hnext
        obtain ⟨hv', hwithout⟩ := hl value f.type v hv
        have hkey : f.name = key := by
          have hfound := List.find?_some hfield
          exact beq_iff_eq.mp hfound
        have hkept : o d.name key = false := by
          have hmem := List.mem_of_find?_eq_some hfield
          rw [← hkey]
          exact hd.kept f hmem
        have hinsert : Value.fieldsWithout o d.name (built.set key v).fields =
            (built.set key v).fields := by
          rw [StructValue.set, Value.fieldsWithout_insert hkept v hsorted, hwithout, hbuilt]
        have hname' : (built.set key v).name = d.name := hname
        obtain ⟨hrest, hr⟩ := ih hname' (hsorted.insert key v) hinsert h
        refine ⟨Steps.except_bind_eq_ok_iff.mpr ⟨built.set key v, ?_, hrest⟩, hr⟩
        unfold Place.setField
        dsimp only
        rw [hd.found key f hfield]
        dsimp only
        rw [hv']
        rfl
    | _ => cases hnext

theorem asStruct_carries {d d' : StructLike} (hd : d.Widens o d') {l : Literal}
    (h : Place.asStruct ⟨t, field⟩ lower d l = .ok v) :
    Place.asStruct ⟨t', field⟩ lower' d' l = .ok v ∧ v.without o = v := by
  unfold Place.asStruct at h ⊢
  split at h
  · obtain ⟨r, hr, h⟩ := Steps.except_bind_eq_ok_iff.mp h
    cases h
    have hname : (StructValue.empty d.name).name = d.name := rfl
    have hempty : Value.fieldsWithout o d.name (StructValue.empty d.name).fields = [] := by
      rw [StructValue.empty, Value.fieldsWithout]
    obtain ⟨hr', hname, hwithout⟩ := setFields_carries hl hd hname List.Pairwise.nil hempty hr
    rw [hd.name_eq]
    refine ⟨Steps.except_bind_eq_ok_iff.mpr ⟨r, hr', rfl⟩, ?_⟩
    rw [StructValue.toValue, Value.without, hname, hwithout]
  · cases h

theorem lowerPlain_carries (ht : t.Widens o t') {l : Literal}
    (hnames : ∀ type v, lower l type = .ok v → t.Names type) {type : FieldType}
    (h : Place.lowerPlain ⟨t, field⟩ lower l type = .ok v) :
    Place.lowerPlain ⟨t', field⟩ lower' l type = .ok v ∧ v.without o = v := by
  cases type with
  | bool => exact ⟨h, asBool_without h⟩
  | double => exact ⟨h, asDouble_without h⟩
  | string => exact ⟨h, asString_without h⟩
  | binary => exact ⟨h, asBinary_without h⟩
  | list element =>
    obtain ⟨vs, hvs, h⟩ := Steps.except_bind_eq_ok_iff.mp h
    cases h
    obtain ⟨hvs', hwithout⟩ : Place.asItems ⟨t', field⟩ (fun item => lower' item element)
        (.list element) l = .ok vs ∧ Value.itemsWithout o vs = vs := asItems_carries hl hvs
    refine ⟨Steps.except_bind_eq_ok_iff.mpr ⟨vs, hvs', rfl⟩, ?_⟩
    rw [Value.without, hwithout]
  | set element =>
    obtain ⟨vs, hvs, h⟩ := Steps.except_bind_eq_ok_iff.mp h
    cases h
    obtain ⟨hvs', hwithout⟩ : Place.asItems ⟨t', field⟩ (fun item => lower' item element)
        (.set element) l = .ok vs ∧ Value.itemsWithout o vs = vs := asItems_carries hl hvs
    refine ⟨Steps.except_bind_eq_ok_iff.mpr ⟨vs, hvs', rfl⟩, ?_⟩
    rw [Value.without, hwithout]
  | map key element => exact asMap_carries hl h
  | identifier name =>
    rw [Place.lowerPlain] at h ⊢
    dsimp only at h ⊢
    rcases hr : t.resolveType name with cause | x
    · rw [hr] at h
      cases h
    · rw [hr] at h
      have hu : ∀ d u, x = .typedef d u → t.Names u := by
        rintro d u rfl
        exact hnames u v h
      obtain ⟨y, hy, hwidens⟩ := ht.resolveType hr hu
      rw [hy]
      cases hwidens with
      | structLike hd => exact asStruct_carries hl hd h
      | enumeration d => exact ⟨h, without_of_bind (fun _ => by simp [Value.without]) h⟩
      | typedef d u => exact hl l u v h
  | void => cases h
  | _ => exact ⟨h, without_of_bind (fun _ => by simp [Value.without]) h⟩

omit hl

/-- A reference to a member of an enum stays one. -/
theorem enumMember_widens (ht : t.Widens o t') {reference : String} {member : Int32}
    (h : t.enumMember reference = .ok member) : t'.enumMember reference = .ok member := by
  unfold SymbolTable.enumMember at h ⊢
  rcases hsplit : splitLast reference with _ | ⟨enum, name⟩
  · rw [hsplit] at h
    cases h
  · rw [hsplit] at h
    dsimp only at h ⊢
    rcases hlookup : t.lookup enum with _ | x
    · rw [hlookup] at h
      cases h
    · obtain ⟨y, hy, hwidens⟩ := ht.lookup enum x hlookup
      rw [hlookup] at h
      rw [hy]
      cases hwidens with
      | enumeration d => exact h
      | _ => cases h

/-- The value of a literal stays, and has nothing in it that is left out. -/
theorem lowerWithin_carries (ht : t.Widens o t') (levels : Nat) :
    Carries o (lowerWithin ⟨t, field⟩ levels) (lowerWithin ⟨t', field⟩ levels) := by
  induction levels with
  | zero =>
    intro l type v h
    cases h
  | succ levels ih =>
    intro l type v h
    by_cases hplain : l.IsPlain
    · rw [lowerWithin_of_plain hplain] at h ⊢
      exact lowerPlain_carries ih ht (fun type v hv => names_of_lowerWithin hplain hv) h
    · obtain ⟨reference, hreference⟩ := not_forall.mp hplain
      have hl : l = .identifier reference := not_not.mp hreference
      subst hl
      rw [lowerWithin] at h ⊢
      dsimp only at h ⊢
      split at h
      · rename_i d hd
        obtain ⟨y, hy, hwidens⟩ := ht.lookup reference _ hd
        cases hwidens
        rw [hy]
        exact ih d.value type v h
      · rename_i hconstant
        rcases hmember : t.enumMember reference with cause | member
        · rw [hmember] at h
          cases h
        · rw [hmember] at h
          rw [enumMember_widens ht hmember]
          split
          · rename_i d hd
            exact absurd (ht.constant reference d hd) (hconstant d)
          · exact ih _ type v h

end Literal

/-! ## Members -/

theorem FieldLayout.defaultOf_widens {o : Omission} {t t' : SymbolTable} (h : t.Widens o t')
    {struct : String} {f : Field} {default : Option Value}
    (hd : defaultOf t struct f = .ok default) :
    defaultOf t' struct f = .ok default ∧ default.map (Value.without o) = default := by
  unfold defaultOf at hd ⊢
  rcases hl : f.default with _ | l
  · rw [hl] at hd
    cases hd
    exact ⟨rfl, rfl⟩
  · rw [hl] at hd
    dsimp only at hd ⊢
    rcases hv : l.lower t (struct ++ "." ++ f.name) f.type with cause | v
    · rw [hv] at hd
      cases hd
    · rw [hv] at hd
      cases hd
      obtain ⟨hv', hwithout⟩ := Literal.lowerWithin_carries h _ l f.type v hv
      rw [Literal.lower, hv', Option.map_some, hwithout]
      exact ⟨rfl, rfl⟩

/-- The member that a field declares stays, and has nothing in its default that is left out. -/
theorem Member.ofField_widens {o : Omission} {t t' : SymbolTable} (h : t.Widens o t')
    {struct : String} {f : Field} {m : Member} (hm : ofField t struct f = .ok m) :
    ofField t' struct f = .ok m ∧ m.without o = m := by
  unfold ofField at hm ⊢
  rcases hid : f.id with _ | id
  · rw [hid] at hm
    cases hm
  · rw [hid] at hm
    obtain ⟨default, hdefault, hm⟩ := Steps.except_bind_eq_ok_iff.mp hm
    obtain ⟨form, hform, hm⟩ := Steps.except_bind_eq_ok_iff.mp hm
    cases hm
    obtain ⟨hdefault', hwithout⟩ := FieldLayout.defaultOf_widens h hdefault
    have hform' : f.type.form t' = .ok form := FieldType.formWithin_widens h hform
    constructor
    · apply Steps.except_bind_eq_ok_iff.mpr
      exact ⟨default, hdefault', Steps.except_bind_eq_ok_iff.mpr ⟨form, hform', rfl⟩⟩
    · rw [without, hwithout]

end Thrift
