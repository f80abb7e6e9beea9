-- Lowered literals. A literal that is lowered to a type has a value of this type or a fault that
-- tells why not. What a value is made from is lowered in fewer levels, so a literal that needs
-- itself, as constants that name each other do, has no value.
import Mathlib.Logic.Relation
import Thrift.Proofs.Defaults
import Thrift.Proofs.Typing

namespace Thrift

open Relation (ReflTransGen TransGen)

/-- No struct that is defined has two fields of one name. -/
def SymbolTable.FieldsDistinct (t : SymbolTable) : Prop :=
  ∀ kind d, .structLike kind d ∈ t.definitions → (d.fields.map (·.name)).Nodup

namespace Literal

variable {t : SymbolTable} {field : String} {p : Place}

/-! ## Values of the right type -/

theorem asBool_holds {l : Literal} {v : Value} (h : p.asBool l = .ok v) :
    ScalarKind.Holds .bool v := by
  unfold Place.asBool at h
  split at h
  · cases h
    exact .bool _
  · split_ifs at h <;> cases h <;> exact .bool _
  · cases h

theorem asDouble_holds {l : Literal} {v : Value} (h : p.asDouble l = .ok v) :
    ScalarKind.Holds .double v := by
  unfold Place.asDouble at h
  split at h <;> cases h <;> exact .double _

theorem asString_holds {l : Literal} {v : Value} (h : p.asString l = .ok v) :
    ScalarKind.Holds .string v := by
  unfold Place.asString at h
  split at h <;> cases h
  exact .string _

theorem asBinary_holds {l : Literal} {v : Value} (h : p.asBinary l = .ok v) :
    ScalarKind.Holds .binary v := by
  unfold Place.asBinary at h
  split at h <;> cases h
  exact .binary _

/-- A literal that is taken as a scalar is one of this kind. -/
theorem asScalar_holds {kind : ScalarKind} {l : Literal} {v : Value}
    (h : p.asScalar kind l = .ok v) : kind.Holds v := by
  cases kind with
  | bool => exact asBool_holds h
  | double => exact asDouble_holds h
  | string => exact asString_holds h
  | binary => exact asBinary_holds h
  | byte =>
    obtain ⟨n, -, h⟩ := Steps.except_bind_eq_ok_iff.mp h
    cases h
    exact .byte _
  | i16 =>
    obtain ⟨n, -, h⟩ := Steps.except_bind_eq_ok_iff.mp h
    cases h
    exact .i16 _
  | i32 =>
    obtain ⟨n, -, h⟩ := Steps.except_bind_eq_ok_iff.mp h
    cases h
    exact .i32 _
  | i64 =>
    obtain ⟨n, -, h⟩ := Steps.except_bind_eq_ok_iff.mp h
    cases h
    exact .i64 _

section Parts

variable {lower : Literal → FieldType → Except CodegenError Value}
  (hl : ∀ l type v, lower l type = .ok v → type.Holds t v)

include hl

theorem asItems_holds {element type : FieldType} {l : Literal} {vs : List Value}
    (h : p.asItems (fun item => lower item element) type l = .ok vs) :
    ∀ v ∈ vs, element.Holds t v := by
  unfold Place.asItems at h
  split at h
  · intro v hv
    obtain ⟨item, -, hitem⟩ := Steps.forall₂_mem_right (Steps.mapM_eq_ok_iff.mp h) hv
    exact hl item element v hitem
  · cases h

theorem asMap_holds {key element : FieldType} {l : Literal} {v : Value}
    (h : p.asMap (fun k => lower k key) (fun v => lower v element) (.map key element) l = .ok v) :
    (FieldType.map key element).Holds t v := by
  unfold Place.asMap at h
  split at h
  · obtain ⟨es, hes, h⟩ := Steps.except_bind_eq_ok_iff.mp h
    cases h
    have hentry : ∀ e ∈ es, key.Holds t e.1 ∧ element.Holds t e.2 := by
      intro e he
      obtain ⟨⟨k, w⟩, -, hpair⟩ := Steps.forall₂_mem_right (Steps.mapM_eq_ok_iff.mp hes) he
      obtain ⟨a, ha, hpair⟩ := Steps.except_bind_eq_ok_iff.mp hpair
      obtain ⟨b, hb, hpair⟩ := Steps.except_bind_eq_ok_iff.mp hpair
      cases hpair
      exact ⟨hl k key a ha, hl w element b hb⟩
    exact .map (fun e he => (hentry e he).1) fun e he => (hentry e he).2
  · cases h

omit hl in
theorem name_of_setField {d : StructLike} {built next : StructValue} {entry : Literal × Literal}
    (h : p.setField lower d built entry = .ok next) : next.name = built.name := by
  unfold Place.setField at h
  split at h
  · split at h
    · obtain ⟨v, -, h⟩ := Steps.except_bind_eq_ok_iff.mp h
      cases h
      rfl
    · cases h
  · cases h

/-- An entry of a struct literal sets a declared field to a value of the field's type. -/
theorem setField_holds {d : StructLike} (hd : (d.fields.map (·.name)).Nodup)
    {built next : StructValue} {entry : Literal × Literal} (hb : d.Holds t built.fields)
    (h : p.setField lower d built entry = .ok next) : d.Holds t next.fields := by
  unfold Place.setField at h
  split at h
  · rename_i key _
    split at h
    · rename_i f hf
      obtain ⟨v, hv, h⟩ := Steps.except_bind_eq_ok_iff.mp h
      cases h
      have hname : f.name = key := by simpa using List.find?_some hf
      have hmem := List.mem_of_find?_eq_some hf
      constructor
      · intro e he
        rcases Fields.mem_insert he with rfl | he
        · exact ⟨f, hmem, hname, fun hvoid =>
          FieldType.Holds.not_void hvoid (hl _ _ _ hv)⟩
        · exact hb.declared e he
      · intro g hg w hw
        rcases Fields.mem_insert hw with heq | hw
        · cases heq
          have hsame : g = f := List.inj_on_of_nodup_map hd hg hmem hname.symm
          rw [hsame]
          exact hl _ _ _ hv
        · exact hb.shaped g hg w hw
    · cases h
  · cases h

theorem asStruct_holds {d : StructLike} (hd : (d.fields.map (·.name)).Nodup) {l : Literal}
    {v : Value} (h : p.asStruct lower d l = .ok v) :
    ∃ fields, v = .struct d.name fields ∧ d.Holds t fields := by
  unfold Place.asStruct at h
  split at h
  · obtain ⟨r, hr, h⟩ := Steps.except_bind_eq_ok_iff.mp h
    cases h
    -- The entries change the fields of the instance and leave its name.
    have hkept : r.name = d.name ∧ d.Holds t r.fields := by
      refine Steps.foldlM_keeps (P := fun built : StructValue =>
        built.name = d.name ∧ d.Holds t built.fields) ?_ ⟨rfl, ?_, ?_⟩ hr
      · intro entry _ built next hbuilt hnext
        exact ⟨(name_of_setField hnext).trans hbuilt.1, setField_holds hl hd hbuilt.2 hnext⟩
      · exact fun e he => absurd he List.not_mem_nil
      · exact fun f _ w hw => absurd hw List.not_mem_nil
    rw [StructValue.toValue, hkept.1]
    exact ⟨r.fields, rfl, hkept.2⟩
  · cases h

end Parts

theorem lowerPlain_identifier_holds {lower : Literal → FieldType → Except CodegenError Value}
    (hl : ∀ l type v, lower l type = .ok v → type.Holds t v) (hd : t.FieldsDistinct)
    {l : Literal} {name : String} {v : Value}
    (h : Place.lowerPlain ⟨t, field⟩ lower l (.identifier name) = .ok v) :
    (FieldType.identifier name).Holds t v := by
  rw [Place.lowerPlain] at h
  dsimp only at h
  rcases hr : t.resolveType name with cause | x
  · rw [hr] at h
    cases h
  · rw [hr] at h
    rcases SymbolTable.resolveType_cases hr with ⟨kind, d, hlookup, rfl⟩ | ⟨d, hlookup, rfl⟩ |
      ⟨d, u, hlookup, hu, rfl⟩
    · obtain ⟨fields, rfl, hfields⟩ :=
        asStruct_holds hl (hd kind d (SymbolTable.mem_of_lookup hlookup)) h
      exact .of_struct hlookup hfields
    · obtain ⟨n, -, h⟩ := Steps.except_bind_eq_ok_iff.mp h
      cases h
      exact .enumeration hlookup _
    · exact .of_underlying hlookup hu (hl l u v h)

/-- A literal that is no reference is lowered to the type if what is inside of it is. -/
theorem lowerPlain_holds {lower : Literal → FieldType → Except CodegenError Value}
    (hl : ∀ l type v, lower l type = .ok v → type.Holds t v) (hd : t.FieldsDistinct)
    {l : Literal} {type : FieldType} {v : Value}
    (h : Place.lowerPlain ⟨t, field⟩ lower l type = .ok v) : type.Holds t v := by
  rcases hk : type.scalar? with _ | kind
  · cases type with
    | list element =>
      obtain ⟨vs, hvs, h⟩ := Steps.except_bind_eq_ok_iff.mp h
      cases h
      exact .list (asItems_holds hl hvs)
    | set element =>
      obtain ⟨vs, hvs, h⟩ := Steps.except_bind_eq_ok_iff.mp h
      cases h
      exact .set (asItems_holds hl hvs)
    | map key element => exact asMap_holds hl h
    | identifier name => exact lowerPlain_identifier_holds hl hd h
    | void => cases h
    | _ => cases hk
  · rw [Place.lowerPlain_of_scalar hk] at h
    exact .scalar hk (asScalar_holds h)

/-- Where structs have fields of distinct names, a lowered literal has the type it is lowered to. -/
theorem lowerWithin_holds (hd : t.FieldsDistinct) {levels : Nat} {l : Literal} {type : FieldType}
    {v : Value} (h : lowerWithin ⟨t, field⟩ levels l type = .ok v) : type.Holds t v := by
  induction levels generalizing l type v with
  | zero => cases h
  | succ levels ih =>
    by_cases hplain : l.IsPlain
    · rw [lowerWithin_of_plain hplain] at h
      exact lowerPlain_holds (fun _ _ _ => ih) hd h
    · obtain ⟨reference, hreference⟩ := not_forall.mp hplain
      obtain rfl : l = .identifier reference := not_not.mp hreference
      rw [lowerWithin_reference] at h
      split at h
      · exact ih h
      · cases h

/-! ## What a value is made from -/

/-- The value of a literal as a type is made from that of another literal as its own type: of what
a reference stands for, of the same literal behind a typedef, or of a part. -/
inductive Needs (t : SymbolTable) : Literal × FieldType → Literal × FieldType → Prop
  | referent {reference : String} {l : Literal} {type : FieldType}
      (h : t.referent? reference = some l) : Needs t (.identifier reference, type) (l, type)
  | target {l : Literal} {name : String} {d : Typedef} {u : FieldType} (hl : l.IsPlain)
      (hd : t.lookup name = some (.typedef d)) (hu : t.underlying d = .ok u) :
      Needs t (l, .identifier name) (l, u)
  | listItem {items : List Literal} {element : FieldType} {l : Literal} (h : l ∈ items) :
      Needs t (.list items, .list element) (l, element)
  | setItem {items : List Literal} {element : FieldType} {l : Literal} (h : l ∈ items) :
      Needs t (.list items, .set element) (l, element)
  | key {entries : List (Literal × Literal)} {key element : FieldType} {e : Literal × Literal}
      (h : e ∈ entries) : Needs t (.map entries, .map key element) (e.1, key)
  | value {entries : List (Literal × Literal)} {key element : FieldType} {e : Literal × Literal}
      (h : e ∈ entries) : Needs t (.map entries, .map key element) (e.2, element)
  | member {entries : List (Literal × Literal)} {name key : String} {kind : StructKind}
      {d : StructLike} {l : Literal} {f : Field} (hd : t.lookup name = some (.structLike kind d))
      (he : (.string key, l) ∈ entries) (hf : d.fields.find? (·.name == key) = some f) :
      Needs t (.map entries, .identifier name) (l, f.type)

theorem isPlain_map (entries : List (Literal × Literal)) : (Literal.map entries).IsPlain := by
  rintro reference ⟨⟩

theorem item_lowered {lower : Literal → Except CodegenError Value} {type : FieldType}
    {items : List Literal} {vs : List Value} (h : p.asItems lower type (.list items) = .ok vs)
    {l : Literal} (hl : l ∈ items) : ∃ v, lower l = .ok v := by
  obtain ⟨v, -, hv⟩ := Steps.forall₂_mem_left (Steps.mapM_eq_ok_iff.mp h) hl
  exact ⟨v, hv⟩

theorem entry_lowered {lowerKey lower : Literal → Except CodegenError Value} {type : FieldType}
    {entries : List (Literal × Literal)} {v : Value}
    (h : p.asMap lowerKey lower type (.map entries) = .ok v) {e : Literal × Literal}
    (he : e ∈ entries) : (∃ k, lowerKey e.1 = .ok k) ∧ ∃ w, lower e.2 = .ok w := by
  obtain ⟨es, hes, -⟩ := Steps.except_bind_eq_ok_iff.mp h
  obtain ⟨pair, -, hpair⟩ := Steps.forall₂_mem_left (Steps.mapM_eq_ok_iff.mp hes) he
  obtain ⟨k, hk, hpair⟩ := Steps.except_bind_eq_ok_iff.mp hpair
  obtain ⟨w, hw, -⟩ := Steps.except_bind_eq_ok_iff.mp hpair
  exact ⟨⟨k, hk⟩, w, hw⟩

theorem field_lowered {lower : Literal → FieldType → Except CodegenError Value} {d : StructLike}
    {entries : List (Literal × Literal)} {v : Value}
    (h : p.asStruct lower d (.map entries) = .ok v) {key : String} {l : Literal} {f : Field}
    (he : (.string key, l) ∈ entries) (hf : d.fields.find? (·.name == key) = some f) :
    ∃ w, lower l f.type = .ok w := by
  obtain ⟨r, hr, -⟩ := Steps.except_bind_eq_ok_iff.mp h
  obtain ⟨built, next, hnext⟩ := Steps.foldlM_step hr he
  unfold Place.setField at hnext
  dsimp only at hnext
  rw [hf] at hnext
  obtain ⟨w, hw, -⟩ := Steps.except_bind_eq_ok_iff.mp hnext
  exact ⟨w, hw⟩

/-- What a value is made from has a value within one level less. -/
theorem Needs.lowered {x y : Literal × FieldType} (h : Needs t x y) {levels : Nat} {v : Value}
    (hv : lowerWithin ⟨t, field⟩ (levels + 1) x.1 x.2 = .ok v) :
    ∃ w, lowerWithin ⟨t, field⟩ levels y.1 y.2 = .ok w := by
  cases h with
  | referent h =>
    rw [lowerWithin_reference] at hv
    dsimp only at hv
    rw [h] at hv
    exact ⟨v, hv⟩
  | target hl hd hu =>
    rw [lowerWithin_of_plain hl, Place.lowerPlain] at hv
    dsimp only at hv
    rw [SymbolTable.resolveType_typedef hd hu] at hv
    exact ⟨v, hv⟩
  | listItem h =>
    obtain ⟨vs, hvs, -⟩ := Steps.except_bind_eq_ok_iff.mp hv
    exact item_lowered hvs h
  | setItem h =>
    obtain ⟨vs, hvs, -⟩ := Steps.except_bind_eq_ok_iff.mp hv
    exact item_lowered hvs h
  | key h =>
    dsimp only at hv
    rw [lowerWithin_of_plain (isPlain_map _), Place.lowerPlain] at hv
    exact (entry_lowered hv h).1
  | value h =>
    dsimp only at hv
    rw [lowerWithin_of_plain (isPlain_map _), Place.lowerPlain] at hv
    exact (entry_lowered hv h).2
  | member hd he hf =>
    rw [lowerWithin_of_plain (isPlain_map _), Place.lowerPlain] at hv
    dsimp only at hv
    rw [SymbolTable.resolveType_structLike hd] at hv
    exact field_lowered hv he hf

theorem lowered_of_needs {x y : Literal × FieldType} (h : ReflTransGen (Needs t) x y)
    {levels : Nat} {v : Value} (hv : lowerWithin ⟨t, field⟩ levels x.1 x.2 = .ok v) :
    ∃ fewer w, fewer ≤ levels ∧ lowerWithin ⟨t, field⟩ fewer y.1 y.2 = .ok w := by
  induction h with
  | refl => exact ⟨levels, v, Nat.le_refl levels, hv⟩
  | tail _ hstep ih =>
    obtain ⟨fewer, w, hle, hw⟩ := ih
    cases fewer with
    | zero => cases hw
    | succ fewer =>
      obtain ⟨w', hw'⟩ := hstep.lowered hw
      exact ⟨fewer, w', by omega, hw'⟩

/-- A literal that needs itself has no value, whatever the bound: going round once would give the
same value in fewer levels. -/
theorem not_lowered_of_cycle {x : Literal × FieldType} (h : TransGen (Needs t) x x) {levels : Nat}
    {v : Value} : lowerWithin ⟨t, field⟩ levels x.1 x.2 ≠ .ok v := by
  induction levels using Nat.strongRecOn generalizing v with
  | ind levels ih =>
    intro hv
    obtain ⟨y, hstep, hround⟩ := TransGen.head'_iff.mp h
    cases levels with
    | zero => cases hv
    | succ levels =>
      obtain ⟨w, hw⟩ := hstep.lowered hv
      obtain ⟨fewer, w', hle, hw'⟩ := lowered_of_needs hround hw
      exact ih fewer (by omega) hw'

/-- The literal needs one that needs itself. -/
def LeadsIntoCycle (t : SymbolTable) (l : Literal) (type : FieldType) : Prop :=
  ∃ x, ReflTransGen (Needs t) (l, type) x ∧ TransGen (Needs t) x x

theorem not_lowered_of_leadsIntoCycle {l : Literal} {type : FieldType}
    (h : l.LeadsIntoCycle t type) {levels : Nat} {v : Value} :
    lowerWithin ⟨t, field⟩ levels l type ≠ .ok v := by
  intro hv
  obtain ⟨x, hreach, hcycle⟩ := h
  obtain ⟨fewer, w, -, hw⟩ := lowered_of_needs hreach hv
  exact not_lowered_of_cycle hcycle hw

/-! ## Faults -/

/-- The fault says that the literal does not fit and where, or that a name serves as no type. -/
inductive Refusal (field : String) : CodegenError → Prop
  | invalid (cause : LiteralFault) : Refusal field (.invalidDefault field cause)
  | resolve (cause : ResolveError) : Refusal field (.resolve cause)

section Refusals

variable {α β : Type}

/-- A result, or such a fault. -/
def EndsWell (field : String) (r : Except CodegenError α) : Prop :=
  ∀ e, r = .error e → Refusal field e

namespace EndsWell

theorem ok (a : α) : EndsWell field (.ok a : Except CodegenError α) := by
  rintro e ⟨⟩

theorem refuse (cause : LiteralFault) :
    EndsWell field (Place.refuse ⟨t, field⟩ cause : Except CodegenError α) := by
  rintro e ⟨⟩
  exact .invalid cause

theorem resolve (cause : ResolveError) :
    EndsWell field (.error (.resolve cause) : Except CodegenError α) := by
  rintro e ⟨⟩
  exact .resolve cause

theorem bind {r : Except CodegenError α} {f : α → Except CodegenError β} (hr : EndsWell field r)
    (hf : ∀ a, EndsWell field (f a)) : EndsWell field (r >>= f) := by
  intro e h
  rcases Steps.except_bind_eq_error_iff.mp h with h | ⟨a, -, h⟩
  · exact hr e h
  · exact hf a e h

theorem mapM {f : α → Except CodegenError β} (hf : ∀ a, EndsWell field (f a)) (as : List α) :
    EndsWell field (as.mapM f) := by
  intro e h
  obtain ⟨a, -, ha⟩ := Steps.mapM_eq_error h
  exact hf a e ha

theorem foldlM {f : β → α → Except CodegenError β} (hf : ∀ b a, EndsWell field (f b a))
    (as : List α) (b : β) : EndsWell field (as.foldlM f b) := by
  intro e h
  obtain ⟨c, a, -, ha⟩ := Steps.foldlM_eq_error h
  exact hf c a e ha

theorem intIn (expected slot : String) (low high : Int) (l : Literal) :
    EndsWell field (Place.intIn ⟨t, field⟩ expected slot low high l) := by
  refine bind ?_ fun n => ?_
  · cases l with
    | int n => exact ok n
    | _ => exact refuse _
  · split
    · exact ok _
    · exact refuse _

theorem asScalar (kind : ScalarKind) (l : Literal) :
    EndsWell field (Place.asScalar ⟨t, field⟩ kind l) := by
  cases kind with
  | bool =>
    change EndsWell field (Place.asBool _ l)
    unfold Place.asBool
    split
    · exact ok _
    · split_ifs
      · exact ok _
      · exact ok _
      · exact refuse _
    · exact refuse _
  | i64 =>
    refine bind ?_ fun n => ok _
    cases l with
    | int n => exact ok n
    | _ => exact refuse _
  | double => cases l <;> first | exact ok _ | exact refuse _
  | string => cases l <;> first | exact ok _ | exact refuse _
  | binary => cases l <;> first | exact ok _ | exact refuse _
  | _ => exact bind (intIn _ _ _ _ l) fun n => ok _

variable {lower : Literal → FieldType → Except CodegenError Value}
  (hl : ∀ l type, EndsWell field (lower l type))

include hl

theorem asItems (element type : FieldType) (l : Literal) :
    EndsWell field (Place.asItems ⟨t, field⟩ (fun item => lower item element) type l) := by
  unfold Place.asItems
  split
  · exact mapM (fun item => hl item element) _
  · exact refuse _

theorem asMap (key element type : FieldType) (l : Literal) :
    EndsWell field (Place.asMap ⟨t, field⟩ (fun k => lower k key) (fun v => lower v element)
      type l) := by
  unfold Place.asMap
  split
  · refine bind (mapM (fun e => ?_) _) fun es => ok _
    exact bind (hl _ _) fun k => bind (hl _ _) fun v => ok _
  · exact refuse _

theorem asStruct (d : StructLike) (l : Literal) :
    EndsWell field (Place.asStruct ⟨t, field⟩ lower d l) := by
  unfold Place.asStruct
  split
  · refine bind (foldlM (fun built entry => ?_) _ _) fun r => ok _
    unfold Place.setField
    split
    · split
      · exact bind (hl _ _) fun v => ok _
      · exact refuse _
    · exact refuse _
  · exact refuse _

theorem lowerPlain (l : Literal) (type : FieldType) :
    EndsWell field (Place.lowerPlain ⟨t, field⟩ lower l type) := by
  rcases hk : type.scalar? with _ | kind
  · cases type with
    | list element => exact bind (asItems hl _ _ _) fun vs => ok _
    | set element => exact bind (asItems hl _ _ _) fun vs => ok _
    | map key element => exact asMap hl _ _ _ _
    | identifier name =>
      unfold Place.lowerPlain
      dsimp only
      split
      · exact resolve _
      · exact hl _ _
      · exact bind (intIn _ _ _ _ l) fun n => ok _
      · exact asStruct hl _ _
      · exact resolve _
      · exact resolve _
    | void => exact refuse _
    | _ => cases hk
  · rw [Place.lowerPlain_of_scalar hk]
    exact asScalar kind l

end EndsWell

/-- Lowering ends, with a value or with a fault that blames the literal or a name. -/
theorem lowerWithin_endsWell (levels : Nat) (l : Literal) (type : FieldType) :
    EndsWell field (lowerWithin ⟨t, field⟩ levels l type) := by
  induction levels generalizing l type with
  | zero => exact .refuse _
  | succ levels ih =>
    by_cases hplain : l.IsPlain
    · rw [lowerWithin_of_plain hplain]
      exact .lowerPlain ih l type
    · obtain ⟨reference, hreference⟩ := not_forall.mp hplain
      obtain rfl : l = .identifier reference := not_not.mp hreference
      rw [lowerWithin_reference]
      split
      · exact ih _ type
      · exact .refuse _

end Refusals

end Literal

/-! ## Documents -/

/-- The statements that are drafted for the type write the value wherever they find it. Sizes, the
depth of structs and fields that must be set may stop them, but no value is of a wrong type. -/
def Compiled.Writes (c : Compiled) (t : SymbolTable) (type : FieldType) (v : Value) : Prop :=
  ∀ source st st' code, Draft.write t type source st = .ok code st' →
    ∀ sight, Machine.find sight source = .ok (some v) → ∀ maxDepth levels fault,
      (Machine.encodeBlock (Machine.encodeWithin c maxDepth levels) code sight).outcome =
        .error fault →
      fault.OfExtent ∧ ∀ expected found, fault ≠ .protocol (.wrongValue expected found)

/-- In a compiled document whose structs have fields of distinct names, every literal is lowered to
every type: to a value that has the type and is written as one of it, or to a fault that says why
not. A literal that needs itself, in however many steps, has no value. -/
theorem Document.lowered_holds {d : Document} {c : Compiled} (hc : d.compile = .ok c)
    (hnames : ∀ x ∈ d.structLikes, (x.2.fields.map (·.name)).Nodup) :
    ∃ t, SymbolTable.ofDocument d = .ok t ∧ ∀ (field : String) (l : Literal) (type : FieldType),
      ((∃ v, l.lower t field type = .ok v ∧ type.Holds t v ∧ c.Writes t type v) ∨
        ∃ e, l.lower t field type = .error e ∧ Literal.Refusal field e) ∧
      (l.LeadsIntoCycle t type → ∀ v, l.lower t field type ≠ .ok v) := by
  obtain ⟨t, ht, -⟩ := compile_eq_ok_iff.mp hc
  have hd : t.FieldsDistinct := fun kind x hx => hnames _ (SymbolTable.mem_structLikes ht hx)
  refine ⟨t, ht, fun field l type => ⟨?_, fun hcycle v =>
    Literal.not_lowered_of_leadsIntoCycle hcycle⟩⟩
  rcases h : l.lower t field type with e | v
  · exact .inr ⟨e, rfl, Literal.lowerWithin_endsWell _ l type e h⟩
  · have hv := Literal.lowerWithin_holds hd h
    refine .inl ⟨v, rfl, hv, ?_⟩
    intro source st st' code hcode sight hfind maxDepth levels fault hfault
    have hextent := encodes_holds hc ht hv hcode hfind maxDepth levels fault hfault
    exact ⟨hextent, hextent.ne_wrongValue⟩

namespace Document

/-- Structs, an enum and constants: a guide that is made from another constant and a member, and
two constants that name each other. -/
def guides : Document := ⟨[
  .enumeration ⟨"Grade", [⟨"LOW", some 1⟩, ⟨"HIGH", none⟩]⟩,
  .structLike .struct ⟨"Page", [⟨"number", some 1, .i32, .default, none, none⟩]⟩,
  .structLike .struct ⟨"Guide", [⟨"pages", some 1, .list (.identifier "Page"), .default, none, none⟩,
    ⟨"grade", some 2, .identifier "Grade", .default, none, none⟩]⟩,
  .constant ⟨"FIRST", .i32, .int 7⟩,
  .constant ⟨"GUIDE", .identifier "Guide", .map [
    (.string "pages", .list [.map [(.string "number", .identifier "FIRST")]]),
    (.string "grade", .identifier "Grade.HIGH")]⟩,
  .constant ⟨"EGG", .i32, .identifier "HEN"⟩,
  .constant ⟨"HEN", .i32, .identifier "EGG"⟩]⟩

/-- The value of the guide: the member is the number behind the one before it. -/
def guide : Value :=
  .struct "Guide" [("grade", .i32 2), ("pages", .list [.struct "Page" [("number", .i32 7)]])]

theorem lowered_holds_guides : ∃ c t, guides.compile = .ok c ∧
    SymbolTable.ofDocument guides = .ok t ∧
    (Literal.identifier "GUIDE").lower t "guide" (.identifier "Guide") = .ok guide ∧
    (FieldType.identifier "Guide").Holds t guide ∧ c.Writes t (.identifier "Guide") guide ∧
    ∀ v, (Literal.identifier "EGG").lower t "egg" .i32 ≠ .ok v := by
  obtain ⟨t, ht, h⟩ := lowered_holds (d := guides) rfl (by decide)
  cases ht
  have hvalue := (h "guide" (.identifier "GUIDE") (.identifier "Guide")).1
  have hcycle := (h "egg" (.identifier "EGG") .i32).2
  refine ⟨_, _, rfl, rfl, rfl, ?_⟩
  rcases hvalue with ⟨v, hv, hholds, hwrites⟩ | ⟨e, he, -⟩
  · cases hv
    exact ⟨hholds, hwrites, hcycle ⟨_, .refl, .tail (.single (.referent rfl)) (.referent rfl)⟩⟩
  · cases he

end Document

end Thrift
