-- Opening typedefs. In a document any identifier of a typedef may be replaced by the type of the
-- typedef, at any depth of any type, and in that type again. Names stand for the same as before up
-- to such types, and every type keeps its form.
import Thrift.Proofs.Typedefs

namespace Thrift

/-! ## The relation -/

/-- The second type is the first one with some identifiers of typedefs replaced by what the table
has for them. -/
inductive FieldType.Opens (t : SymbolTable) : FieldType → FieldType → Prop
  | refl (type : FieldType) : Opens t type type
  | alias {name : String} {d : Typedef} {type : FieldType} (hd : t.typedef? name = some d)
      (h : Opens t d.type type) : Opens t (.identifier name) type
  | list {e e' : FieldType} (h : Opens t e e') : Opens t (.list e) (.list e')
  | set {e e' : FieldType} (h : Opens t e e') : Opens t (.set e) (.set e')
  | map {k k' e e' : FieldType} (hk : Opens t k k') (h : Opens t e e') :
      Opens t (.map k e) (.map k' e')

inductive Field.Opens (t : SymbolTable) : Field → Field → Prop
  | mk (f : Field) {type : FieldType} (h : f.type.Opens t type) : Opens t f { f with type }

/-- Lists of fields, one by one. -/
abbrev Field.AllOpen (t : SymbolTable) : List Field → List Field → Prop :=
  List.Forall₂ (Field.Opens t)

inductive StructLike.Opens (t : SymbolTable) : StructLike → StructLike → Prop
  | mk (d : StructLike) {fields : List Field} (h : Field.AllOpen t d.fields fields) :
      Opens t d { d with fields }

inductive Function.Opens (t : SymbolTable) : Function → Function → Prop
  | mk (f : Function) {returnType : FieldType} {fields throws : List Field}
      (hr : f.returnType.Opens t returnType) (hf : Field.AllOpen t f.fields fields)
      (ht : Field.AllOpen t f.throws throws) : Opens t f { f with returnType, fields, throws }

inductive Service.Opens (t : SymbolTable) : Service → Service → Prop
  | mk (s : Service) {functions : List Function}
      (h : List.Forall₂ (Function.Opens t) s.functions functions) : Opens t s { s with functions }

inductive Definition.Opens (t : SymbolTable) : Definition → Definition → Prop
  | structLike {kind : StructKind} {d d' : StructLike} (h : d.Opens t d') :
      Opens t (.structLike kind d) (.structLike kind d')
  | enumeration (d : Enumeration) : Opens t (.enumeration d) (.enumeration d)
  | typedef (d : Typedef) {type : FieldType} (h : d.type.Opens t type) :
      Opens t (.typedef d) (.typedef { d with type })
  | constant (d : Constant) {type : FieldType} (h : d.type.Opens t type) :
      Opens t (.constant d) (.constant { d with type })
  | service {s s' : Service} (h : s.Opens t s') : Opens t (.service s) (.service s')

/-- A statement that defines nothing stays. -/
inductive Statement.Opens (t : SymbolTable) : Statement → Statement → Prop
  | other {st : Statement} (h : st.definition? = none) : Opens t st st
  | definition {st st' : Statement} {x x' : Definition} (hx : st.definition? = some x)
      (hx' : st'.definition? = some x') (h : x.Opens t x') : Opens t st st'

/-- The second document is the first one with some identifiers of typedefs replaced by the types
that they stand for in it. -/
def Document.Opens (d d' : Document) : Prop :=
  ∃ t, SymbolTable.ofDocument d = .ok t ∧ List.Forall₂ (Statement.Opens t) d.body d'.body

/-! ## Tables -/

theorem Field.Opens.name_eq {t : SymbolTable} {f f' : Field} (h : f.Opens t f') :
    f'.name = f.name := by
  cases h
  rfl

theorem Field.Opens.type {t : SymbolTable} {f f' : Field} (h : f.Opens t f') :
    f.type.Opens t f'.type := by
  cases h
  assumption

theorem StructLike.Opens.fields {t : SymbolTable} {d d' : StructLike} (h : d.Opens t d') :
    Field.AllOpen t d.fields d'.fields := by
  cases h
  assumption

theorem StructLike.Opens.name_eq {t : SymbolTable} {d d' : StructLike} (h : d.Opens t d') :
    d'.name = d.name := by
  cases h
  rfl

theorem Function.Opens.oneway_eq {t : SymbolTable} {f f' : Function} (h : f.Opens t f') :
    f'.oneway = f.oneway := by
  cases h
  rfl

theorem Service.Opens.name_eq {t : SymbolTable} {s s' : Service} (h : s.Opens t s') :
    s'.name = s.name := by
  cases h
  rfl

theorem Service.Opens.parent_eq {t : SymbolTable} {s s' : Service} (h : s.Opens t s') :
    s'.parent = s.parent := by
  cases h
  rfl

theorem Service.Opens.functions {t : SymbolTable} {s s' : Service} (h : s.Opens t s') :
    List.Forall₂ (Function.Opens t) s.functions s'.functions := by
  cases h
  assumption

theorem Definition.Opens.name_eq {t : SymbolTable} {x x' : Definition} (h : x.Opens t x') :
    x'.name = x.name := by
  cases h with
  | structLike h => exact h.name_eq
  | service h => exact h.name_eq
  | _ => rfl

namespace SymbolTable

/-- The second table has the definitions of the first one with typedefs opened. -/
def Opens (t t' : SymbolTable) : Prop :=
  List.Forall₂ (Definition.Opens t) t.definitions t'.definitions

theorem Opens.size_eq {t t' : SymbolTable} (h : t.Opens t') : t'.size = t.size :=
  (List.Forall₂.length_eq h).symm

theorem opens_of_document {d d' : Document} {t t' : SymbolTable} (ht : ofDocument d = .ok t)
    (ht' : ofDocument d' = .ok t') (h : List.Forall₂ (Statement.Opens t) d.body d'.body) :
    t.Opens t' := by
  unfold Opens
  rw [definitions_of_document ht, definitions_of_document ht']
  refine List.rel_filterMap (fun st st' hst => ?_) h
  cases hst with
  | other hnone =>
    rw [hnone]
    exact .none
  | definition hx hx' hopens =>
    rw [hx, hx']
    exact .some hopens

variable {t t' : SymbolTable}

theorem Opens.find? (h : t.Opens t') (name : String) :
    Option.Rel (Definition.Opens t) (t.find? name) (t'.find? name) :=
  Steps.find?_of_forall₂ (fun _ _ hx => by rw [hx.name_eq]) h

theorem lookup_of_service {name : String} {s : Service}
    (hs : t.service name = .ok s) : t.lookup name = some (.service s) := by
  unfold SymbolTable.service at hs
  split at hs
  · rename_i hlookup
    cases hs
    exact hlookup
  · cases hs

/-- A name stands for something in both tables or in none. -/
theorem Opens.lookup (h : t.Opens t') (name : String) :
    Option.Rel (Definition.Opens t) (t.lookup name) (t'.lookup name) := by
  have hor : ∀ {a b a' b' : Option Definition}, Option.Rel (Definition.Opens t) a a' →
      Option.Rel (Definition.Opens t) b b' →
        Option.Rel (Definition.Opens t) (a.or b) (a'.or b') := by
    intro a b a' b' ha hb
    cases ha with
    | none => exact hb
    | some hx => exact .some hx
  exact hor (h.find? name) (h.find? (baseName name))

theorem Opens.lookup_some (h : t.Opens t') {name : String} {x : Definition}
    (hx : t.lookup name = some x) : ∃ x', t'.lookup name = some x' ∧ x.Opens t x' := by
  have hrel := h.lookup name
  rcases hx' : t'.lookup name with _ | x'
  · rw [hx, hx'] at hrel
    cases hrel
  · rw [hx, hx'] at hrel
    cases hrel with
    | some hopens => exact ⟨x', rfl, hopens⟩

end SymbolTable

/-! ## Forms -/

/-- A type keeps its form when typedefs are opened, in it and in the definitions. -/
theorem FieldType.HasForm.opens {t t' : SymbolTable} (h : t.Opens t') {type type' : FieldType}
    {form : Form} (hform : type.HasForm t form) (htype : type.Opens t type') :
    type'.HasForm t' form := by
  induction hform generalizing type' with
  | scalar hk =>
    cases htype with
    | refl => exact .scalar hk
    | _ => cases hk
  | struct hd =>
    cases htype with
    | refl =>
      obtain ⟨_, hd', hopens⟩ := h.lookup_some hd
      cases hopens with
      | structLike hstruct =>
        rw [← hstruct.name_eq]
        exact .struct hd'
    | «alias» hd' _ => cases hd.symm.trans (SymbolTable.typedef?_eq_some_iff.mp hd')
  | enumeration hd =>
    cases htype with
    | refl =>
      obtain ⟨_, hd', hopens⟩ := h.lookup_some hd
      cases hopens
      exact .enumeration hd'
    | «alias» hd' _ => cases hd.symm.trans (SymbolTable.typedef?_eq_some_iff.mp hd')
  | «alias» hd _ ih =>
    cases htype with
    | refl =>
      obtain ⟨_, hd', hopens⟩ := h.lookup_some hd
      cases hopens with
      | typedef _ hbody => exact .alias hd' (ih hbody)
    | «alias» hd' hbody =>
      cases hd.symm.trans (SymbolTable.typedef?_eq_some_iff.mp hd')
      exact ih hbody
  | list _ ih =>
    cases htype with
    | refl => exact .list (ih (.refl _))
    | list he => exact .list (ih he)
  | set _ ih =>
    cases htype with
    | refl => exact .set (ih (.refl _))
    | set he => exact .set (ih he)
  | map _ _ ihk ih =>
    cases htype with
    | refl => exact .map (ihk (.refl _)) (ih (.refl _))
    | map hk he => exact .map (ihk hk) (ih he)
  | void =>
    cases htype
    exact .void

end Thrift
