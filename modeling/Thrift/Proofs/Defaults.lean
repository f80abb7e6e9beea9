-- Defaults behind opened typedefs. A literal is lowered to its type by following typedefs and
-- references, as deep as a bound allows. Where two types of one form both take a literal, it has
-- the same value for both, wherever on the way the typedefs were.
import Thrift.Proofs.Openings
import Mathlib.Data.List.Nodup

namespace Thrift

/-! ## References -/

namespace SymbolTable

/-- The literal that a reference stands for: the value of a constant, else the number of a member
of an enum. -/
def referent? (t : SymbolTable) (reference : String) : Option Literal :=
  match t.lookup reference with
  | some (.constant d) => some d.value
  | _ =>
    match t.enumMember reference with
    | .ok member => some (.int (Int64.ofInt member.toInt))
    | .error _ => none

variable {t t' : SymbolTable}

theorem Opens.enumMember (h : t.Opens t') (reference : String) :
    t'.enumMember reference = t.enumMember reference := by
  unfold SymbolTable.enumMember
  rcases splitLast reference with _ | ⟨enum, member⟩
  · rfl
  · dsimp only
    have hrel := h.lookup enum
    generalize t.lookup enum = x, t'.lookup enum = x' at hrel
    cases hrel with
    | none => rfl
    | some hopens => cases hopens <;> rfl

theorem Opens.referent? (h : t.Opens t') (reference : String) :
    t'.referent? reference = t.referent? reference := by
  unfold SymbolTable.referent?
  rw [h.enumMember]
  have hrel := h.lookup reference
  generalize t.lookup reference = x, t'.lookup reference = x' at hrel
  cases hrel with
  | none => rfl
  | some hopens => cases hopens <;> rfl

/-- Structs of one name in the two tables are the same up to opened types. -/
theorem Opens.structLike (h : t.Opens t') (hnames : t.names.Nodup) {kind kind' : StructKind}
    {d d' : StructLike} (hd : .structLike kind d ∈ t.definitions)
    (hd' : .structLike kind' d' ∈ t'.definitions) (hname : d'.name = d.name) : d.Opens t d' := by
  obtain ⟨x, hx, hopens⟩ := Steps.forall₂_mem_right h hd'
  cases hopens with
  | @structLike _ d₀ _ hstruct =>
    have heq : Definition.structLike kind' d₀ = .structLike kind d :=
      List.inj_on_of_nodup_map hnames hx hd (hstruct.name_eq.symm.trans hname)
    cases heq
    exact hstruct

/-- Every field of every struct has a form. -/
def Formed (t : SymbolTable) : Prop :=
  ∀ kind d, .structLike kind d ∈ t.definitions → ∀ f ∈ d.fields, ∃ form, f.type.HasForm t form

end SymbolTable

/-! ## Types without typedefs in front -/

namespace FieldType

variable {t : SymbolTable} {type : FieldType}

/-- A type that is no typedef shows its form. -/
inductive Shows (t : SymbolTable) : FieldType → Form → Prop
  | scalar {type : FieldType} {kind : ScalarKind} (h : type.scalar? = some kind) :
      Shows t type (.scalar kind)
  | struct {name : String} {kind : StructKind} {d : StructLike}
      (h : t.lookup name = some (.structLike kind d)) : Shows t (.identifier name) (.struct d.name)
  | enumeration {name : String} {d : Enumeration} (h : t.lookup name = some (.enumeration d)) :
      Shows t (.identifier name) (.scalar .i32)
  | list {element : FieldType} {e : Form} (h : element.HasForm t e) : Shows t (.list element) (.list e)
  | set {element : FieldType} {e : Form} (h : element.HasForm t e) : Shows t (.set element) (.set e)
  | map {key element : FieldType} {k e : Form} (hk : key.HasForm t k) (h : element.HasForm t e) :
      Shows t (.map key element) (.map k e)
  | void : Shows t .void .void

theorem HasForm.shows {form : Form} (h : type.HasForm t form) (hfinal : t.Final type) :
    type.Shows t form := by
  cases h with
  | scalar hk => exact .scalar hk
  | struct hd => exact .struct hd
  | enumeration hd => exact .enumeration hd
  | «alias» hd _ =>
    have hnone := hfinal _ rfl
    rw [SymbolTable.typedef?_eq_some_iff.mpr hd] at hnone
    cases hnone
  | list h => exact .list h
  | set h => exact .set h
  | map hk h => exact .map hk h
  | void => exact .void

theorem Shows.struct_inv {struct : String} (h : type.Shows t (.struct struct)) :
    ∃ name kind d, type = .identifier name ∧ t.lookup name = some (.structLike kind d) ∧
      d.name = struct := by
  cases h with
  | struct hd => exact ⟨_, _, _, rfl, hd, rfl⟩

end FieldType

/-! ## Literals -/

namespace Literal

/-- A literal as a value of a scalar. -/
def Place.asScalar (p : Place) : ScalarKind → Literal → Except CodegenError Value
  | .bool => p.asBool
  | .byte => p.asByte
  | .i16 => p.asI16
  | .i32 => p.asI32
  | .i64 => p.asI64
  | .double => p.asDouble
  | .string => p.asString
  | .binary => p.asBinary

theorem Place.lowerPlain_of_scalar {type : FieldType} {kind : ScalarKind}
    (hk : type.scalar? = some kind) (p : Place)
    (lower : Literal → FieldType → Except CodegenError Value) (l : Literal) :
    p.lowerPlain lower l type = p.asScalar kind l := by
  cases type <;> cases hk <;> rfl

theorem lowerWithin_reference (p : Place) (levels : Nat) (reference : String) (type : FieldType) :
    lowerWithin p (levels + 1) (.identifier reference) type =
      match p.symbols.referent? reference with
      | some l => lowerWithin p levels l type
      | none => p.refuse (.unknownReference reference) := by
  rw [lowerWithin, SymbolTable.referent?]
  rcases p.symbols.lookup reference with _ | x
  · rcases p.symbols.enumMember reference with _ | _ <;> rfl
  · cases x with
    | constant d => rfl
    | _ => rcases p.symbols.enumMember reference with _ | _ <;> rfl

variable {t t' : SymbolTable} {field : String}

/-- A literal that is no reference is lowered for what its type stands for in the end. -/
theorem lowerPlain_of_lowerWithin {levels : Nat} {l : Literal} (hl : l.IsPlain) {type : FieldType}
    {form : Form} {v : Value} (hform : type.HasForm t form)
    (h : lowerWithin ⟨t, field⟩ levels l type = .ok v) :
    ∃ m u, m < levels ∧ u.Shows t form ∧
      Place.lowerPlain ⟨t, field⟩ (lowerWithin ⟨t, field⟩ m) l u = .ok v := by
  cases levels with
  | zero => cases h
  | succ levels =>
    rw [lowerWithin_of_plain hl] at h
    by_cases hfinal : t.Final type
    · exact ⟨levels, type, by omega, hform.shows hfinal, h⟩
    · obtain ⟨name, hname⟩ := not_forall.mp hfinal
      obtain ⟨rfl, hsome⟩ := Classical.not_imp.mp hname
      obtain ⟨d, hd⟩ := Option.ne_none_iff_exists'.mp hsome
      rw [SymbolTable.typedef?_eq_some_iff] at hd
      rw [Place.lowerPlain] at h
      dsimp only at h
      rcases hr : t.resolveType name with cause | x
      · rw [hr] at h
        cases h
      · rw [hr] at h
        obtain ⟨u, hu, rfl⟩ := SymbolTable.resolveType_of_typedef hd hr
        have hshows := ((FieldType.hasForm_underlying_iff hd hu).mpr hform).shows
          (SymbolTable.final_of_follow hu)
        cases levels with
        | zero => cases h
        | succ levels =>
          dsimp only at h
          rw [lowerWithin_of_plain hl] at h
          exact ⟨levels, u, by omega, hshows, h⟩

/-! ## Two ways of lowering -/

/-- Wherever both ways of lowering give a value for types of one form, they give the same. -/
def Consistent (t t' : SymbolTable)
    (lower lower' : Literal → FieldType → Except CodegenError Value) : Prop :=
  ∀ l type type' form v v', type.HasForm t form → type'.HasForm t' form → lower l type = .ok v →
    lower' l type' = .ok v' → v = v'

variable {lower lower' : Literal → FieldType → Except CodegenError Value}

section Containers

variable (hc : Consistent t t' lower lower') {key element key' element' : FieldType} {k e : Form}
  (hk : key.HasForm t k) (hk' : key'.HasForm t' k) (he : element.HasForm t e)
  (he' : element'.HasForm t' e)

include hc he he'

theorem asItems_consistent {type type' : FieldType} {l : Literal} {vs vs' : List Value}
    (h : Place.asItems ⟨t, field⟩ (fun item => lower item element) type l = .ok vs)
    (h' : Place.asItems ⟨t', field⟩ (fun item => lower' item element') type' l = .ok vs') :
    vs = vs' := by
  unfold Place.asItems at h h'
  split at h
  · refine Steps.mapM_unique (R := Eq) ?_ (List.forall₂_refl _) h h'
    rintro l _ v v' rfl hv hv'
    exact hc l element element' e v v' he he' hv hv'
  · cases h

include hk hk'

theorem asMap_consistent {type type' : FieldType} {l : Literal} {v v' : Value}
    (h : Place.asMap ⟨t, field⟩ (fun k => lower k key) (fun v => lower v element) type l = .ok v)
    (h' : Place.asMap ⟨t', field⟩ (fun k => lower' k key') (fun v => lower' v element') type' l =
      .ok v') : v = v' := by
  unfold Place.asMap at h h'
  split at h
  · obtain ⟨es, hes, h⟩ := Steps.except_bind_eq_ok_iff.mp h
    obtain ⟨es', hes', h'⟩ := Steps.except_bind_eq_ok_iff.mp h'
    cases h
    cases h'
    suffices es = es' by rw [this]
    refine Steps.mapM_unique (R := Eq) ?_ (List.forall₂_refl _) hes hes'
    rintro entry _ pair pair' rfl hpair hpair'
    obtain ⟨a, ha, hpair⟩ := Steps.except_bind_eq_ok_iff.mp hpair
    obtain ⟨b, hb, hpair⟩ := Steps.except_bind_eq_ok_iff.mp hpair
    obtain ⟨a', ha', hpair'⟩ := Steps.except_bind_eq_ok_iff.mp hpair'
    obtain ⟨b', hb', hpair'⟩ := Steps.except_bind_eq_ok_iff.mp hpair'
    cases hpair
    cases hpair'
    rw [hc entry.1 key key' k a a' hk hk' ha ha', hc entry.2 element element' e b b' he he' hb hb']
  · cases h

end Containers

section Structs

variable (h : t.Opens t') (hc : Consistent t t' lower lower') {d d' : StructLike}
  (hd : d.Opens t d') (hforms : ∀ f ∈ d.fields, ∃ form, f.type.HasForm t form)

include h hc hd hforms

/-- An entry of a struct literal sets the same field to the same value. -/
theorem setField_consistent {built next next' : StructValue} {entry : Literal × Literal}
    (hnext : Place.setField ⟨t, field⟩ lower d built entry = .ok next)
    (hnext' : Place.setField ⟨t', field⟩ lower' d' built entry = .ok next') : next = next' := by
  obtain ⟨literal, value⟩ := entry
  unfold Place.setField at hnext hnext'
  cases literal with
  | string key =>
    dsimp only at hnext hnext'
    have hrel := Steps.find?_of_forall₂ (p := (·.name == key)) (q := (·.name == key))
      (fun _ _ hf => by rw [hf.name_eq]) hd.fields
    rcases hf : d.fields.find? (·.name == key) with _ | f
    · rw [hf] at hnext
      cases hnext
    · rcases hf' : d'.fields.find? (·.name == key) with _ | f'
      · rw [hf'] at hnext'
        cases hnext'
      · rw [hf, hf'] at hrel
        rw [hf] at hnext
        rw [hf'] at hnext'
        obtain ⟨v, hv, hnext⟩ := Steps.except_bind_eq_ok_iff.mp hnext
        obtain ⟨v', hv', hnext'⟩ := Steps.except_bind_eq_ok_iff.mp hnext'
        cases hnext
        cases hnext'
        obtain ⟨form, hform⟩ := hforms f (List.mem_of_find?_eq_some hf)
        cases hrel with
        | some hopens =>
          rw [hc value f.type f'.type form v v' hform (hform.opens h hopens.type) hv hv']
  | _ => cases hnext

theorem setFields_consistent {entries : List (Literal × Literal)} {built r r' : StructValue}
    (hr : entries.foldlM (Place.setField ⟨t, field⟩ lower d) built = .ok r)
    (hr' : entries.foldlM (Place.setField ⟨t', field⟩ lower' d') built = .ok r') : r = r' := by
  refine Steps.foldlM_of_forall₂ (R := Eq) (Q := Eq) ?_ (List.forall₂_refl _) rfl hr hr'
  rintro entry _ built next _ next' rfl rfl hnext hnext'
  exact setField_consistent h hc hd hforms hnext hnext'

theorem asStruct_consistent {l : Literal} {v v' : Value}
    (hv : Place.asStruct ⟨t, field⟩ lower d l = .ok v)
    (hv' : Place.asStruct ⟨t', field⟩ lower' d' l = .ok v') : v = v' := by
  unfold Place.asStruct at hv hv'
  rw [hd.name_eq] at hv'
  split at hv
  · obtain ⟨r, hr, hv⟩ := Steps.except_bind_eq_ok_iff.mp hv
    obtain ⟨r', hr', hv'⟩ := Steps.except_bind_eq_ok_iff.mp hv'
    cases hv
    cases hv'
    rw [setFields_consistent h hc hd hforms hr hr']
  · cases hv

end Structs

/-- The words for a fault do not matter where there is none. -/
theorem intIn_reworded {p : Place} {expected expected' slot slot' : String} {low high n : Int}
    {l : Literal} (h : p.intIn expected slot low high l = .ok n) :
    p.intIn expected' slot' low high l = .ok n := by
  cases l with
  | int m =>
    obtain ⟨_, ⟨⟩, h⟩ := Steps.except_bind_eq_ok_iff.mp h
    refine Steps.except_bind_eq_ok_iff.mpr ⟨m, rfl, ?_⟩
    split at h
    · rename_i hrange
      rw [if_pos hrange]
      exact h
    · cases h
  | _ => cases h

/-- A type that shows a scalar takes literals as this scalar. An enum takes numbers, as an i32
does. -/
theorem asScalar_of_lowerPlain {kind : ScalarKind} {type : FieldType} {l : Literal} {v : Value}
    (hshows : type.Shows t (.scalar kind))
    (h : Place.lowerPlain ⟨t, field⟩ lower l type = .ok v) :
    Place.asScalar ⟨t, field⟩ kind l = .ok v := by
  cases hshows with
  | scalar hk => rwa [Place.lowerPlain_of_scalar hk] at h
  | @enumeration name d hd =>
    rw [Place.lowerPlain] at h
    dsimp only at h
    rw [SymbolTable.resolveType_enumeration hd] at h
    obtain ⟨n, hn, h⟩ := Steps.except_bind_eq_ok_iff.mp h
    exact Steps.except_bind_eq_ok_iff.mpr ⟨n, intIn_reworded hn, h⟩

/-- Types that show one form take a literal alike. -/
theorem lowerPlain_consistent (h : t.Opens t') (hnames : t.names.Nodup) (hformed : t.Formed)
    (hc : Consistent t t' lower lower') {type type' : FieldType} {form : Form}
    (hshows : type.Shows t form) (hshows' : type'.Shows t' form) {l : Literal} {v v' : Value}
    (hv : Place.lowerPlain ⟨t, field⟩ lower l type = .ok v)
    (hv' : Place.lowerPlain ⟨t', field⟩ lower' l type' = .ok v') : v = v' := by
  cases form with
  | scalar kind =>
    have hscalar := asScalar_of_lowerPlain hshows hv
    have hscalar' := asScalar_of_lowerPlain hshows' hv'
    have hplace : Place.asScalar ⟨t, field⟩ kind = Place.asScalar ⟨t', field⟩ kind := by
      cases kind <;> rfl
    rw [hplace] at hscalar
    exact Except.ok.inj (hscalar.symm.trans hscalar')
  | struct name =>
    obtain ⟨reference, kind, d, rfl, hd, hname⟩ := hshows.struct_inv
    obtain ⟨reference', kind', d', rfl, hd', hname'⟩ := hshows'.struct_inv
    have hopens := h.structLike hnames (SymbolTable.mem_of_lookup hd)
      (SymbolTable.mem_of_lookup hd') (hname'.trans hname.symm)
    rw [Place.lowerPlain] at hv hv'
    dsimp only at hv hv'
    rw [SymbolTable.resolveType_structLike hd] at hv
    rw [SymbolTable.resolveType_structLike hd'] at hv'
    exact asStruct_consistent h hc hopens (hformed kind d (SymbolTable.mem_of_lookup hd)) hv hv'
  | list e =>
    cases hshows with
    | list he =>
      cases hshows' with
      | list he' =>
        obtain ⟨vs, hvs, hv⟩ := Steps.except_bind_eq_ok_iff.mp hv
        obtain ⟨vs', hvs', hv'⟩ := Steps.except_bind_eq_ok_iff.mp hv'
        cases hv
        cases hv'
        rw [asItems_consistent hc he he' hvs hvs']
  | set e =>
    cases hshows with
    | set he =>
      cases hshows' with
      | set he' =>
        obtain ⟨vs, hvs, hv⟩ := Steps.except_bind_eq_ok_iff.mp hv
        obtain ⟨vs', hvs', hv'⟩ := Steps.except_bind_eq_ok_iff.mp hv'
        cases hv
        cases hv'
        rw [asItems_consistent hc he he' hvs hvs']
  | map k e =>
    cases hshows with
    | map hk he =>
      cases hshows' with
      | map hk' he' => exact asMap_consistent hc hk hk' he he' hv hv'
  | void =>
    cases hshows
    cases hv

/-- A literal has one value for all types of one form, before and after typedefs are opened,
whatever the bounds. -/
theorem lowerWithin_consistent (h : t.Opens t') (hnames : t.names.Nodup) (hformed : t.Formed)
    (levels levels' : Nat) :
    Consistent t t' (lowerWithin ⟨t, field⟩ levels) (lowerWithin ⟨t', field⟩ levels') := by
  induction levels using Nat.strongRecOn generalizing levels' with
  | ind levels ih =>
    intro l type type' form v v' hform hform' hv hv'
    by_cases hplain : l.IsPlain
    · obtain ⟨m, u, hm, hshows, hv⟩ := lowerPlain_of_lowerWithin hplain hform hv
      obtain ⟨m', u', -, hshows', hv'⟩ := lowerPlain_of_lowerWithin hplain hform' hv'
      exact lowerPlain_consistent h hnames hformed (ih m hm m') hshows hshows' hv hv'
    · obtain ⟨reference, hreference⟩ := not_forall.mp hplain
      obtain rfl : l = .identifier reference := not_not.mp hreference
      cases levels with
      | zero => cases hv
      | succ levels =>
        cases levels' with
        | zero => cases hv'
        | succ levels' =>
          rw [lowerWithin_reference] at hv hv'
          dsimp only at hv hv'
          rw [h.referent?] at hv'
          rcases hl : t.referent? reference with _ | l
          · rw [hl] at hv
            cases hv
          · rw [hl] at hv hv'
            exact ih levels (Nat.lt_succ_self levels) levels' l type type' form v v' hform hform'
              hv hv'

end Literal

/-- A field keeps its default when typedefs are opened. -/
theorem FieldLayout.defaultOf_opens {t t' : SymbolTable} (h : t.Opens t') (hnames : t.names.Nodup)
    (hformed : t.Formed) {struct : String} {f f' : Field} (hf : f.Opens t f') {form : Form}
    (hform : f.type.HasForm t form) {default default' : Option Value}
    (hd : defaultOf t struct f = .ok default) (hd' : defaultOf t' struct f' = .ok default') :
    default = default' := by
  cases hf with | mk htype =>
  unfold defaultOf at hd hd'
  dsimp only at hd'
  rcases hl : f.default with _ | l
  · rw [hl] at hd hd'
    cases hd
    cases hd'
    rfl
  · rw [hl] at hd hd'
    dsimp only at hd hd'
    rcases hv : l.lower t (struct ++ "." ++ f.name) f.type with cause | v
    · rw [hv] at hd
      cases hd
    · rcases hv' : l.lower t' (struct ++ "." ++ f.name) _ with cause | v'
      · rw [hv'] at hd'
        cases hd'
      · rw [hv] at hd
        rw [hv'] at hd'
        cases hd
        cases hd'
        rw [Literal.lowerWithin_consistent h hnames hformed _ _ l f.type _ form v v' hform
          (hform.opens h htype) hv hv']

end Thrift
