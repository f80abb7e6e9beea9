-- A compiled document realizes its schema: for every record there is a codec of the same name,
-- whose procedures load and store the members of the record.
import Thrift.Proofs.Assembly
import Thrift.Proofs.Drafted

namespace Thrift

open StructCodec (headerName)

/-! ## Procedures of a record -/

theorem Form.wireType_eq_void_iff {f : Form} : f.wireType = .void ↔ f = .void := by
  cases f with
  | scalar kind => cases kind <;> simp [wireType, ScalarKind.wireType]
  | _ => simp [wireType]

theorem Form.wireType_ne_stop (f : Form) : f.wireType ≠ .stop := by
  cases f with
  | scalar kind => cases kind <;> simp [wireType, ScalarKind.wireType]
  | _ => simp [wireType]

theorem Member.form_of_ofField {t : SymbolTable} {struct : String} {f : Field} {m : Member}
    (h : Member.ofField t struct f = .ok m) : f.type.form t = .ok m.form := by
  unfold Member.ofField at h
  split at h
  · cases h
  · obtain ⟨default, -, h⟩ := Steps.except_bind_eq_ok_iff.mp h
    obtain ⟨form, hform, h⟩ := Steps.except_bind_eq_ok_iff.mp h
    cases h
    exact hform

/-- The layout of a field says the same as the member. -/
structure LaidOut (l : FieldLayout) (m : Member) : Prop where
  name_eq : l.name = m.name
  id_eq : l.id = m.id
  wireType_eq : l.wireType = m.form.wireType
  required_eq : l.isRequired = m.required
  default_eq : l.default = m.default

theorem LaidOut.isVoid_eq {l : FieldLayout} {m : Member} (h : LaidOut l m) :
    l.isVoid = m.isVoid := by
  rw [FieldLayout.isVoid, Member.isVoid, h.wireType_eq, Bool.eq_iff_iff, beq_iff_eq, beq_iff_eq]
  exact Form.wireType_eq_void_iff

/-- The case of a member: it loads and stages the value behind a tag that is right. -/
inductive LoadsCase : Member → Int16 × List Stmt → Prop
  | void {m : Member} (hm : m.form = .void) :
      LoadsCase m (m.id, [.ifWireType headerName .void [.skip headerName] [.skip headerName]])
  | value {m : Member} {x : String} {code : List Stmt} (hm : m.form ≠ .void)
      (h : Loads headerName m.form x code) :
      LoadsCase m (m.id, [.ifWireType headerName m.form.wireType (code ++ [.stage m.name x])
        [.skip headerName]])

/-- The statement that stores a member when it is set. -/
inductive StoresMember : Member → Stmt → Prop
  | mk {m : Member} {code : List Stmt} (h : Stores m.form (.field .this m.name) code) :
      StoresMember m (.ifPresent (.field .this m.name)
        ([.writeFieldBegin m.name m.form.wireType m.id] ++ code ++ [.writeFieldEnd]))

structure Realizes (codec : StructCodec) (r : Record) : Prop where
  name_eq : codec.name = r.name
  kind_eq : codec.kind = r.kind
  laidOut : List.Forall₂ LaidOut codec.fields r.members
  ids_nodup : (r.members.map (·.id)).Nodup
  decode : ∃ cases, List.Forall₂ LoadsCase r.members cases ∧
    codec.decode = StructCodec.decodeProcedure r.kind r.name codec.fields cases
  encode : ∃ stmts, List.Forall₂ StoresMember r.sent stmts ∧
    codec.encode = StructCodec.checks r.kind r.name codec.fields ++ [.writeStructBegin r.name] ++
      stmts ++ [.writeFieldStop, .writeStructEnd]

/-! ## Layouts -/

/-- The layout is the one that a field declares. -/
structure DeclaredBy (t : SymbolTable) (struct : String) (f : Field) (l : FieldLayout) : Prop where
  name_eq : l.name = f.name
  id_eq : f.id = some l.id
  type_eq : l.type = f.type
  wireType_eq : f.type.wireType t = .ok l.wireType
  requiredness_eq : l.requiredness = f.requiredness
  default_eq : FieldLayout.defaultOf t struct f = .ok l.default

theorem declaredBy_of_ofField {t : SymbolTable} {struct : String} {taken : List Int16} {f : Field}
    {l : FieldLayout} (h : FieldLayout.ofField t struct taken f = .ok l) :
    DeclaredBy t struct f l := by
  unfold FieldLayout.ofField at h
  rcases hid : f.id with _ | id
  · rw [hid] at h
    cases h
  · simp only [hid] at h
    split at h
    · cases h
    · obtain ⟨default, hd, h⟩ := Steps.except_bind_eq_ok_iff.mp h
      obtain ⟨w, hw, h⟩ := Steps.except_bind_eq_ok_iff.mp h
      cases h
      exact ⟨rfl, hid, rfl, hw, rfl, hd⟩

theorem id_of_ofField {t : SymbolTable} {struct : String} {taken : List Int16} {f : Field}
    {l : FieldLayout} (h : FieldLayout.ofField t struct taken f = .ok l) : l.id ∉ taken := by
  unfold FieldLayout.ofField at h
  rcases hid : f.id with _ | id
  · rw [hid] at h
    cases h
  · simp only [hid] at h
    split at h
    · cases h
    · rename_i hfree
      obtain ⟨default, -, h⟩ := Steps.except_bind_eq_ok_iff.mp h
      obtain ⟨w, -, h⟩ := Steps.except_bind_eq_ok_iff.mp h
      cases h
      exact hfree

theorem declaredBy_of_ofFields {t : SymbolTable} {struct : String} {fs : List Field}
    {taken : List Int16} {ls : List FieldLayout}
    (h : FieldLayout.ofFields t struct taken fs = .ok ls) :
    List.Forall₂ (DeclaredBy t struct) fs ls := by
  induction fs generalizing taken ls with
  | nil =>
    cases h
    exact .nil
  | cons f fs ih =>
    rw [FieldLayout.ofFields] at h
    obtain ⟨l, hl, h⟩ := Steps.except_bind_eq_ok_iff.mp h
    obtain ⟨ls', hls, h⟩ := Steps.except_bind_eq_ok_iff.mp h
    cases h
    exact .cons (declaredBy_of_ofField hl) (ih hls)

/-- Every field has an id of its own, and none of those that were taken. -/
theorem ids_of_ofFields {t : SymbolTable} {struct : String} {fs : List Field}
    {taken : List Int16} {ls : List FieldLayout}
    (h : FieldLayout.ofFields t struct taken fs = .ok ls) :
    (ls.map (·.id)).Nodup ∧ ∀ l ∈ ls, l.id ∉ taken := by
  induction fs generalizing taken ls with
  | nil =>
    cases h
    exact ⟨List.nodup_nil, fun _ hl => absurd hl List.not_mem_nil⟩
  | cons f fs ih =>
    rw [FieldLayout.ofFields] at h
    obtain ⟨l, hl, h⟩ := Steps.except_bind_eq_ok_iff.mp h
    obtain ⟨ls', hls, h⟩ := Steps.except_bind_eq_ok_iff.mp h
    cases h
    obtain ⟨hnodup, hfree⟩ := ih hls
    have hnew : l.id ∉ ls'.map (·.id) := by
      intro hmem
      obtain ⟨l', hl', heq⟩ := List.mem_map.mp hmem
      exact hfree l' hl' (heq ▸ List.mem_cons_self)
    refine ⟨List.nodup_cons.mpr ⟨hnew, hnodup⟩, fun l' hl' => ?_⟩
    rcases List.mem_cons.mp hl' with rfl | hl'
    · exact id_of_ofField hl
    · exact fun hmem => hfree l' hl' (List.mem_cons_of_mem l.id hmem)

/-- The member that a layout gives once its form is known. -/
def FieldLayout.toMember (l : FieldLayout) (form : Form) : Member :=
  ⟨l.name, l.id, form, l.isRequired, l.default⟩

/-- The member has the form of the layout's type, and else says what the layout says. -/
structure GivesMember (t : SymbolTable) (l : FieldLayout) (m : Member) : Prop where
  form_eq : l.type.form t = .ok m.form
  eq_toMember : m = l.toMember m.form
  laidOut : LaidOut l m

theorem givesMember_toMember {t : SymbolTable} {struct : String} {f : Field} {l : FieldLayout}
    {form : Form} (h : DeclaredBy t struct f l) (hf : l.type.form t = .ok form) :
    GivesMember t l (l.toMember form) := by
  refine ⟨hf, rfl, rfl, rfl, ?_, rfl, rfl⟩
  rw [h.type_eq] at hf
  exact (FieldType.wireTypeWithin_form h.wireType_eq hf).symm

theorem ofField_of_givesMember {t : SymbolTable} {struct : String} {f : Field} {l : FieldLayout}
    {m : Member} (h : DeclaredBy t struct f l) (hm : GivesMember t l m) :
    Member.ofField t struct f = .ok m := by
  have hf := hm.form_eq
  rw [h.type_eq] at hf
  rw [hm.eq_toMember]
  unfold Member.ofField FieldLayout.toMember FieldLayout.isRequired
  simp only [h.id_eq, h.default_eq, hf, h.name_eq, h.requiredness_eq]
  rfl

/-! ## Procedures that are drafted -/

namespace StructCodec

theorem read_eq_readWithin {t : SymbolTable} {type : FieldType} {x : String} {st : DraftState}
    (h0 : st.excess = 0) :
    Draft.read t type x st = Draft.readWithin t maxTypeDepth type x st := by
  change Draft.readWithin t (maxTypeDepth - st.excess) type x st = _
  rw [h0]
  rfl

theorem write_eq_writeWithin {t : SymbolTable} {type : FieldType} {source : Expr}
    {st : DraftState} (h0 : st.excess = 0) :
    Draft.write t type source st = Draft.writeWithin t maxTypeDepth type source st := by
  change Draft.writeWithin t (maxTypeDepth - st.excess) type source st = _
  rw [h0]
  rfl

/-- A void field has the void form, and its case passes over the value. -/
theorem loads_void {x : String} {code : List Stmt} (h : Loads headerName .void x code) :
    code = [.skip headerName] := by
  cases h
  rfl

theorem decodeCase_loads {t : SymbolTable} {struct : String} {f : Field} {l : FieldLayout}
    (hl : DeclaredBy t struct f l) {st st' : DraftState} {case : Int16 × List Stmt}
    (hh : st.header = some headerName) (h0 : st.excess = 0)
    (h : decodeCase t l st = .ok case st') :
    Draft.Follows st st' ∧ ∃ m, GivesMember t l m ∧ LoadsCase m case := by
  unfold decodeCase decodeField at h
  obtain ⟨body, s₁, h₁, h⟩ := Steps.bind_eq_ok_iff.mp h
  cases h
  split at h₁
  · rename_i hvoid
    rw [read_eq_readWithin h0] at h₁
    obtain ⟨form, hf⟩ := Draft.readWithin_loading hh h₁
    have hgives := givesMember_toMember hl hf.form_eq
    have hform : form = .void := by
      rw [hgives.laidOut.isVoid_eq, Member.isVoid, beq_iff_eq] at hvoid
      exact hvoid
    subst hform
    refine ⟨hf.follows, _, hgives, ?_⟩
    have hold : Draft.Older st "" := by
      intro stem n _ heq
      have := Names.underscore_mem_temporary stem n
      rw [← heq] at this
      cases this
    rw [loads_void (hf.loads hold), hgives.laidOut.wireType_eq]
    exact .void rfl
  · rename_i hvoid
    obtain ⟨x, s₂, h₂, h₁⟩ := Steps.bind_eq_ok_iff.mp h₁
    obtain ⟨rfl, rfl⟩ := Draft.fresh_eq_ok_iff.mp h₂
    obtain ⟨code, s₃, h₃, h₁⟩ := Steps.bind_eq_ok_iff.mp h₁
    cases h₁
    rw [read_eq_readWithin (by exact h0)] at h₃
    obtain ⟨form, hf⟩ := Draft.readWithin_loading (by exact hh) h₃
    have hgives := givesMember_toMember hl hf.form_eq
    refine ⟨(Draft.follows_issue _ _).trans hf.follows, _, hgives, ?_⟩
    have hform : form ≠ .void := by
      rintro rfl
      exact hvoid hgives.laidOut.isVoid_eq
    rw [hgives.laidOut.wireType_eq]
    exact .value hform (hf.loads (Draft.older_temporary (Nat.le_refl _)))

theorem decodeCases_load {t : SymbolTable} {struct : String} {fs : List Field}
    {ls : List FieldLayout} (hl : List.Forall₂ (DeclaredBy t struct) fs ls) {st st' : DraftState}
    {cases : List (Int16 × List Stmt)} (hh : st.header = some headerName) (h0 : st.excess = 0)
    (h : ls.mapM (decodeCase t) st = .ok cases st') :
    List.Forall₂ (fun l case => ∃ m, GivesMember t l m ∧ LoadsCase m case) ls cases := by
  induction hl generalizing st cases with
  | nil =>
    cases h
    exact .nil
  | cons hf _ ih =>
    rw [List.mapM_cons] at h
    obtain ⟨case, s₁, h₁, h⟩ := Steps.bind_eq_ok_iff.mp h
    obtain ⟨cases', s₂, h₂, h⟩ := Steps.bind_eq_ok_iff.mp h
    cases h
    obtain ⟨hfollows, hcase⟩ := decodeCase_loads hf hh h0 h₁
    exact .cons hcase (ih (hfollows.header_eq.trans hh) (hfollows.excess_eq.trans h0) h₂)

theorem encodeFields_store {t : SymbolTable} {ls : List FieldLayout} {st st' : DraftState}
    {stmts : List Stmt} (h0 : st.excess = 0) (h : ls.mapM (encodeField t) st = .ok stmts st') :
    List.Forall₂ (fun l stmt => ∃ form code, l.type.form t = .ok form ∧
      Stores form (.field .this l.name) code ∧ stmt = .ifPresent (.field .this l.name)
        ([.writeFieldBegin l.name l.wireType l.id] ++ code ++ [.writeFieldEnd])) ls stmts := by
  induction ls generalizing st stmts with
  | nil =>
    cases h
    exact .nil
  | cons l ls ih =>
    rw [List.mapM_cons] at h
    obtain ⟨stmt, s₁, h₁, h⟩ := Steps.bind_eq_ok_iff.mp h
    obtain ⟨stmts', s₂, h₂, h⟩ := Steps.bind_eq_ok_iff.mp h
    cases h
    unfold encodeField at h₁
    obtain ⟨code, s₃, h₃, h₁⟩ := Steps.bind_eq_ok_iff.mp h₁
    cases h₁
    rw [write_eq_writeWithin h0] at h₃
    obtain ⟨form, hf⟩ := Draft.writeWithin_storing h₃
    exact .cons ⟨form, code, hf.form_eq, hf.stores, rfl⟩
      (ih (hf.follows.excess_eq.trans h0) h₂)

theorem draft_eq_ok {α : Type} {header : Option String} {d : Drafting α} {a : α}
    (h : draft header d = .ok a) :
    ∃ st', d { DraftState.empty with header } = .ok a st' := by
  unfold draft EStateM.run at h
  split at h
  · rename_i a' st' hd
    cases h
    exact ⟨st', hd⟩
  · cases h

/-- The codec of a definition realizes its record. -/
theorem ofDefinition_realizes {t : SymbolTable} {kind : StructKind} {d : StructLike}
    {codec : StructCodec} (h : ofDefinition t kind d = .ok codec) :
    ∃ r, Record.ofDefinition t (kind, d) = .ok r ∧ Realizes codec r := by
  unfold ofDefinition at h
  obtain ⟨ls, hls, h⟩ := Steps.except_bind_eq_ok_iff.mp h
  obtain ⟨dec, hdec, h⟩ := Steps.except_bind_eq_ok_iff.mp h
  obtain ⟨enc, henc, h⟩ := Steps.except_bind_eq_ok_iff.mp h
  cases h
  have hdeclared := declaredBy_of_ofFields hls
  obtain ⟨cases, hcases, hdec⟩ := Steps.except_bind_eq_ok_iff.mp hdec
  cases hdec
  obtain ⟨_, hcases⟩ := draft_eq_ok hcases
  obtain ⟨stmts, hstmts, henc⟩ := Steps.except_bind_eq_ok_iff.mp henc
  cases henc
  obtain ⟨_, hstmts⟩ := draft_eq_ok hstmts
  -- The forms come from the drafted cases; the members put them beside the layouts.
  obtain ⟨ms, hms, hloads⟩ := Steps.forall₂_split (R := GivesMember t) (S := LoadsCase)
    (fun _ _ hcase => hcase) (decodeCases_load hdeclared rfl rfl hcases)
  have hlaid : List.Forall₂ LaidOut ls ms := hms.imp fun _ _ h => h.laidOut
  have hids : ls.map (·.id) = ms.map (·.id) :=
    Steps.map_eq_of_forall₂ hlaid fun _ _ h => h.id_eq
  refine ⟨⟨d.name, kind, ms⟩, ?_, rfl, rfl, hlaid, hids ▸ (ids_of_ofFields hls).1,
    ⟨cases, hloads, rfl⟩, stmts, ?_, rfl⟩
  · refine Steps.except_bind_eq_ok_iff.mpr ⟨ms, Steps.mapM_eq_ok_iff.mpr ?_, rfl⟩
    exact Steps.forall₂_comp (R := DeclaredBy t d.name) (S := GivesMember t)
      (fun _ _ _ => ofField_of_givesMember) hdeclared hms
  · have hsent : List.Forall₂ (GivesMember t) (ls.filter (!·.isVoid)) (ms.filter (!·.isVoid)) :=
      List.rel_filter (fun l m h => by simp [LaidOut.isVoid_eq h.laidOut]) hms
    refine Steps.forall₂_comp ?_ hsent.flip (encodeFields_store rfl hstmts)
    rintro m l stmt hgives ⟨form, code, hf, hstores, rfl⟩
    cases hf.symm.trans hgives.form_eq
    rw [hgives.laidOut.name_eq] at hstores ⊢
    rw [hgives.laidOut.wireType_eq, hgives.laidOut.id_eq]
    exact .mk hstores

end StructCodec

/-! ## Compiled documents -/

namespace Compiled

/-- Codecs realize the records of definitions, one by one. -/
def AllRealize (t : SymbolTable) (ds : List (StructKind × StructLike))
    (codecs : List StructCodec) : Prop :=
  List.Forall₂ (fun d codec => ∃ r, Record.ofDefinition t d = .ok r ∧ Realizes codec r) ds codecs

theorem allRealize_of_mapM {t : SymbolTable} {ds : List (StructKind × StructLike)}
    {codecs : List StructCodec} (h : ds.mapM (StructCodec.ofCarrier t) = .ok codecs) :
    AllRealize t ds codecs :=
  (Steps.mapM_eq_ok_iff.mp h).imp fun _ _ => StructCodec.ofDefinition_realizes

/-- Every codec realizes the record of the same place in the schema. -/
def RealizesSchema (c : Compiled) (s : Schema) : Prop :=
  List.Forall₂ Realizes c.structs s.records

/-- A document that compiles has a schema, and its codecs realize it. -/
theorem realizes_of_compile {d : Document} {c : Compiled} (h : d.compile = .ok c) :
    ∃ s, d.schema = .ok s ∧ c.RealizesSchema s := by
  obtain ⟨t, ht, h⟩ := Document.compile_eq_ok_iff.mp h
  obtain ⟨hstructs, -, -⟩ := ofSymbols_eq_ok_iff.mp h
  obtain ⟨rs, hrs, hrealize⟩ := Steps.forall₂_split (fun _ _ h => h) (allRealize_of_mapM hstructs)
  exact ⟨⟨rs⟩, Document.schema_eq_ok_iff.mpr ⟨t, ht, Steps.mapM_eq_ok_iff.mpr hrs⟩,
    hrealize.flip⟩

/-- A document with two members of one id in a struct does not compile. -/
theorem RealizesSchema.ids_nodup {c : Compiled} {s : Schema} (h : c.RealizesSchema s) :
    ∀ r ∈ s.records, (r.members.map (·.id)).Nodup := by
  intro r hr
  obtain ⟨codec, -, hcodec⟩ := Steps.forall₂_mem_right h hr
  exact hcodec.ids_nodup

/-- A name has a codec exactly when it has a record, and the codec realizes the record. -/
theorem RealizesSchema.find {c : Compiled} {s : Schema} (h : c.RealizesSchema s) (name : String) :
    (c.struct? name = none ∧ s.record? name = none) ∨
      ∃ codec r, c.struct? name = some codec ∧ s.record? name = some r ∧ Realizes codec r := by
  obtain ⟨structs, services⟩ := c
  obtain ⟨records⟩ := s
  unfold RealizesSchema at h
  unfold struct? Schema.record?
  dsimp only at h ⊢
  induction h with
  | nil => exact .inl ⟨rfl, rfl⟩
  | @cons codec r codecs rs hr _ ih =>
    by_cases hname : r.name = name
    · exact .inr ⟨codec, r, by simp [hr.name_eq, hname], by simp [hname], hr⟩
    · simpa [hr.name_eq, hname] using ih

end Compiled

end Thrift
