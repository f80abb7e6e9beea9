-- Values of a type. A value has the shape of a type when it is built as the definitions say, struct
-- by struct and field by field. What is written for a type takes every such value; only sizes,
-- nested structs and fields that must be set can stop it.
import Thrift.Proofs.Closure
import Thrift.Proofs.EncodeRefines
import Thrift.Proofs.Faults
import Thrift.Proofs.Typedefs

namespace Thrift

/-! ## Shapes -/

/-- The value is a scalar of exactly this kind. -/
inductive ScalarKind.Holds : ScalarKind → Value → Prop
  | bool (b : Bool) : Holds .bool (.bool b)
  | byte (n : Int8) : Holds .byte (.byte n)
  | i16 (n : Int16) : Holds .i16 (.i16 n)
  | i32 (n : Int32) : Holds .i32 (.i32 n)
  | i64 (n : Int64) : Holds .i64 (.i64 n)
  | double (x : Double) : Holds .double (.double x)
  | string (s : String) : Holds .string (.string s)
  | binary (bytes : Bytes) : Holds .binary (.binary bytes)

namespace FieldType

/-- The value has the shape of the type: a scalar of its kind, an i32 for an enum, a container of
the right sort, or an instance of the struct with declared fields only, none of them void and each
one of its type. No value has the shape of void. -/
inductive Holds (t : SymbolTable) : FieldType → Value → Prop
  | scalar {type : FieldType} {kind : ScalarKind} {v : Value} (hk : type.scalar? = some kind)
      (h : kind.Holds v) : Holds t type v
  | enumeration {name : String} {d : Enumeration} (hd : t.lookup name = some (.enumeration d))
      (n : Int32) : Holds t (.identifier name) (.i32 n)
  | alias {name : String} {d : Typedef} {v : Value} (hd : t.lookup name = some (.typedef d))
      (h : Holds t d.type v) : Holds t (.identifier name) v
  | struct {name : String} {kind : StructKind} {d : StructLike} {fields : List (String × Value)}
      (hd : t.lookup name = some (.structLike kind d))
      (declared : ∀ e ∈ fields, ∃ f ∈ d.fields, f.name = e.1 ∧ ¬ f.type.HasForm t .void)
      (shaped : ∀ f ∈ d.fields, ∀ w, (f.name, w) ∈ fields → Holds t f.type w) :
      Holds t (.identifier name) (.struct d.name fields)
  | list {element : FieldType} {items : List Value} (h : ∀ v ∈ items, Holds t element v) :
      Holds t (.list element) (.list items)
  | set {element : FieldType} {items : List Value} (h : ∀ v ∈ items, Holds t element v) :
      Holds t (.set element) (.set items)
  | map {key element : FieldType} {entries : List (Value × Value)}
      (hk : ∀ e ∈ entries, Holds t key e.1) (h : ∀ e ∈ entries, Holds t element e.2) :
      Holds t (.map key element) (.map entries)

end FieldType

/-- The fields are declared by the struct, none of them as void, and each one has the shape of its
type. -/
structure StructLike.Holds (t : SymbolTable) (d : StructLike) (fields : List (String × Value)) :
    Prop where
  declared : ∀ e ∈ fields, ∃ f ∈ d.fields, f.name = e.1 ∧ ¬ f.type.HasForm t .void
  shaped : ∀ f ∈ d.fields, ∀ w, (f.name, w) ∈ fields → f.type.Holds t w

namespace FieldType.Holds

variable {t : SymbolTable} {type : FieldType} {v : Value}

theorem of_struct {name : String} {kind : StructKind} {d : StructLike}
    {fields : List (String × Value)} (hd : t.lookup name = some (.structLike kind d))
    (h : d.Holds t fields) : (FieldType.identifier name).Holds t (.struct d.name fields) :=
  .struct hd h.declared h.shaped

/-- A typedef is followed to what it stands for in the end. -/
theorem of_follow {levels : Nat} {passed : List String} {u : FieldType}
    (hu : t.follow levels passed type = .ok u) (h : u.Holds t v) : type.Holds t v := by
  induction levels generalizing passed type with
  | zero => cases hu
  | succ levels ih =>
    cases type with
    | identifier name =>
      rw [SymbolTable.follow] at hu
      rcases hd : t.typedef? name with _ | next
      · rw [hd] at hu
        cases hu
        exact h
      · rw [hd] at hu
        dsimp only at hu
        split at hu
        · cases hu
        · exact .alias (SymbolTable.typedef?_eq_some_iff.mp hd) (ih hu)
    | _ =>
      cases hu
      exact h

theorem of_underlying {name : String} {d : Typedef} {u : FieldType}
    (hd : t.lookup name = some (.typedef d)) (hu : t.underlying d = .ok u) (h : u.Holds t v) :
    (FieldType.identifier name).Holds t v :=
  .alias hd (of_follow hu h)

/-- No value has a type that is void behind its typedefs. -/
theorem not_void (hform : type.HasForm t .void) : ¬ type.Holds t v := by
  intro h
  induction h with
  | scalar hk _ => cases hform <;> cases hk
  | enumeration hd _ =>
    cases hform with
    | «alias» hd' _ => cases hd.symm.trans hd'
  | «alias» hd _ ih => exact ih ((FieldType.hasForm_alias_iff hd).mp hform)
  | struct hd _ _ _ =>
    cases hform with
    | «alias» hd' _ => cases hd.symm.trans hd'
  | _ => cases hform

end FieldType.Holds

/-! ## Writing -/

/-- The fault is one of sizes, of the depth of structs or of fields that must be set, so no value
is blamed for its type and nothing that should be there is missing. -/
inductive Fault.OfExtent : Fault → Prop
  | structDepth (struct : String) (limit : Nat) : OfExtent (.protocol (.structDepth struct limit))
  | fieldCount (union : String) (found : Nat) : OfExtent (.protocol (.fieldCount union found))
  | unsetField (field : String) : OfExtent (.protocol (.unsetField field))
  | sizeOverflow (size : Nat) : OfExtent (.protocol (.sizeOverflow size))

theorem Fault.OfExtent.ne_wrongValue {fault : Fault} (h : fault.OfExtent)
    (expected found : String) : fault ≠ .protocol (.wrongValue expected found) := by
  rintro rfl
  cases h

open Writing (FailsBy)

/-- A scalar of a kind is written as this kind. -/
theorem ScalarKind.Holds.write {kind : ScalarKind} {v : Value} (h : kind.Holds v) :
    FailsBy Fault.OfExtent (Machine.writeScalar kind v) := by
  cases h with
  | string s => exact .binary .sizeOverflow _
  | binary bytes => exact .binary .sizeOverflow bytes
  | _ => exact .put _

section Nested

variable {t : SymbolTable} {nested : Machine.Nested}
  (hn : ∀ kind d fields, .structLike kind d ∈ t.definitions → d.Holds t fields →
    FailsBy Fault.OfExtent (nested d.name ⟨d.name, fields⟩))

include hn

/-- A value that has the shape of a type is written as the form of the type. -/
theorem FieldType.Holds.write {type : FieldType} {form : Form} {v : Value}
    (hform : type.HasForm t form) (h : type.Holds t v) :
    FailsBy Fault.OfExtent (form.write nested v) := by
  induction hform generalizing v with
  | scalar hk =>
    cases h with
    | scalar hk' h =>
      cases hk.symm.trans hk'
      exact h.write
    | _ => cases hk
  | struct hd =>
    cases h with
    | scalar hk => cases hk
    | enumeration hd' => cases hd.symm.trans hd'
    | «alias» hd' => cases hd.symm.trans hd'
    | struct hd' declared shaped =>
      cases hd.symm.trans hd'
      exact hn _ _ _ (SymbolTable.mem_of_lookup hd) ⟨declared, shaped⟩
  | enumeration hd =>
    cases h with
    | scalar hk => cases hk
    | enumeration _ n => exact .put _
    | «alias» hd' => cases hd.symm.trans hd'
    | struct hd' => cases hd.symm.trans hd'
  | «alias» hd _ ih =>
    cases h with
    | scalar hk => cases hk
    | enumeration hd' => cases hd.symm.trans hd'
    | «alias» hd' h =>
      cases hd.symm.trans hd'
      exact ih h
    | struct hd' => cases hd.symm.trans hd'
  | list _ ih =>
    cases h with
    | scalar hk => cases hk
    | list h =>
      exact .bind (.elementsHeader .sizeOverflow _ _) fun _ => .items fun v hv => ih (h v hv)
  | set _ ih =>
    cases h with
    | scalar hk => cases hk
    | set h =>
      exact .bind (.elementsHeader .sizeOverflow _ _) fun _ => .items fun v hv => ih (h v hv)
  | map _ _ ihk ih =>
    cases h with
    | scalar hk => cases hk
    | map hk h =>
      exact .bind (.entriesHeader .sizeOverflow _ _ _) fun _ =>
        .entries (fun e he => ihk (hk e he)) fun e he => ih (h e he)
  | void => exact .pure ()

/-- The members of a record are written where the fields that are set have their types. -/
theorem StructLike.Holds.write {kind : StructKind} {d : StructLike} {r : Record}
    {fields : List (String × Value)} (hr : Record.ofDefinition t (kind, d) = .ok r)
    (h : d.Holds t fields) : FailsBy Fault.OfExtent (r.write nested ⟨d.name, fields⟩) := by
  obtain ⟨ms, hms, hr⟩ := Steps.except_bind_eq_ok_iff.mp hr
  cases hr
  refine .record .fieldCount .unsetField fun m hm w hw => ?_
  obtain ⟨f, hf, hof⟩ := Steps.forall₂_mem_right (Steps.mapM_eq_ok_iff.mp hms)
    (List.mem_of_mem_filter hm)
  have hname : m.name = f.name := Member.name_of_ofField hof
  have hmem := StructValue.mem_of_held hw
  rw [hname] at hmem
  exact (h.shaped f hf w hmem).write hn
    (FieldType.hasForm_of_formWithin (Member.form_of_ofField hof))

end Nested

namespace Document

variable {d : Document} {c : Compiled} {t : SymbolTable}

/-- In a compiled document, an instance that has the shape of its struct is written at any depth. -/
theorem write_holds {s : Schema} (hc : d.compile = .ok c) (ht : SymbolTable.ofDocument d = .ok t)
    (hs : d.schema = .ok s) (hrealizes : c.RealizesSchema s) (maxDepth levels : Nat) :
    ∀ kind x fields, .structLike kind x ∈ t.definitions → x.Holds t fields →
      FailsBy Fault.OfExtent (s.writeWithin maxDepth levels x.name ⟨x.name, fields⟩) := by
  induction levels with
  | zero => exact fun kind x fields _ _ => .fail (.structDepth x.name maxDepth)
  | succ levels ih =>
    intro kind x fields hx h
    have hcarrier : (kind, x) ∈ d.carriers :=
      List.mem_append_left _ (SymbolTable.mem_structLikes ht hx)
    obtain ⟨r, hof, hr⟩ := record_of_carrier hc ht hs hrealizes hcarrier
    rw [Schema.writeWithin, hr]
    exact h.write ih hof

/-- The statements drafted for a type write every value that has its shape. -/
theorem encodes_holds (hc : d.compile = .ok c) (ht : SymbolTable.ofDocument d = .ok t)
    {type : FieldType} {v : Value} (h : type.Holds t v) {source : Expr} {st st' : DraftState}
    {code : List Stmt} (hcode : Draft.write t type source st = .ok code st')
    {sight : Machine.Sight} (hv : Machine.find sight source = .ok (some v))
    (maxDepth levels : Nat) :
    FailsBy Fault.OfExtent
      (Machine.encodeBlock (Machine.encodeWithin c maxDepth levels) code sight) := by
  obtain ⟨s, hs, hrealizes⟩ := Compiled.realizes_of_compile hc
  obtain ⟨form, hstoring⟩ := Draft.writeWithin_storing
    (show Draft.writeWithin t (maxTypeDepth - st.excess) type source st = .ok code st' from hcode)
  rw [Machine.encodeWithin_eq hrealizes]
  refine .of_agree (Machine.stores_agree hstoring.stores sight v hv) ?_
  exact h.write (write_holds hc ht hs hrealizes maxDepth levels)
    (FieldType.hasForm_of_formWithin hstoring.form_eq)

end Document

end Thrift
