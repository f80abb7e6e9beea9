-- The procedures of a struct, written down from its record alone. Drafting follows types through
-- typedefs, but what it drafts depends on the form of a type only, down to the numbers of the
-- temporaries.
import Thrift.Proofs.DecodeRefines

namespace Thrift

open StructCodec (headerName)

/-! ## Forms -/

namespace Form

/-- The statements that read one value of the form into a local, when `n` names were given out, and
how many are given out behind them. -/
def loading (header : String) : Form → String → Nat → List Stmt × Nat
  | scalar kind, x, n => ([.read (.scalar kind) x], n)
  | struct name, x, n => ([.read (.struct name) x], n)
  | list e, x, n =>
    let value := Names.temporary "value" (n + 3)
    let body := e.loading header value (n + 3)
    (Draft.readContainer (.list e.wireType) (Names.temporary "metadata" (n + 1))
      (Names.temporary "i" (n + 2)) x (body.1 ++ [.insert (.list e.wireType) x none value]), body.2)
  | set e, x, n =>
    let value := Names.temporary "value" (n + 3)
    let body := e.loading header value (n + 3)
    (Draft.readContainer (.set e.wireType) (Names.temporary "metadata" (n + 1))
      (Names.temporary "i" (n + 2)) x (body.1 ++ [.insert (.set e.wireType) x none value]), body.2)
  | map k e, x, n =>
    let key := Names.temporary "key" (n + 3)
    let value := Names.temporary "value" (n + 4)
    let keyBody := k.loading header key (n + 4)
    let body := e.loading header value keyBody.2
    (Draft.readContainer (.map k.wireType e.wireType) (Names.temporary "metadata" (n + 1))
      (Names.temporary "i" (n + 2)) x
      (keyBody.1 ++ body.1 ++ [.insert (.map k.wireType e.wireType) x (some key) value]), body.2)
  | void, _, n => ([.skip header], n)

/-- The statements that write the value found at an expression as one of the form. -/
def storing : Form → Expr → Nat → List Stmt × Nat
  | scalar kind, source, n => ([.write (.scalar kind) source], n)
  | struct name, source, n => ([.write (.struct name) source], n)
  | list e, source, n =>
    let value := Names.temporary "value" (n + 1)
    let body := e.storing (.bound value) (n + 1)
    (Draft.writeContainer (.list e.wireType) source none value body.1, body.2)
  | set e, source, n =>
    let value := Names.temporary "value" (n + 1)
    let body := e.storing (.bound value) (n + 1)
    (Draft.writeContainer (.set e.wireType) source none value body.1, body.2)
  | map k e, source, n =>
    let key := Names.temporary "key" (n + 1)
    let value := Names.temporary "value" (n + 2)
    let keyBody := k.storing (.bound key) (n + 2)
    let body := e.storing (.bound value) keyBody.2
    (Draft.writeContainer (.map k.wireType e.wireType) source (some key) value
      (keyBody.1 ++ body.1), body.2)
  | void, _, n => ([], n)

end Form

/-! ## Drafts -/

namespace Draft

variable {t : SymbolTable} {levels levels' : Nat} {type : FieldType} {form : Form}
  {st st' : DraftState} {code : List Stmt}

/-- What is drafted for a read depends on the form of the type only. -/
theorem readWithin_eq_loading {header x : String} (hform : type.formWithin t levels' = .ok form)
    (hh : st.header = some header) (h : readWithin t levels type x st = .ok code st') :
    form.loading header x (count st) = (code, count st') := by
  induction levels generalizing levels' type form x st st' code with
  | zero => cases h
  | succ levels ih =>
    cases levels' with
    | zero => cases hform
    | succ levels' =>
      cases type with
      | identifier name =>
        rw [readWithin] at h
        obtain ⟨shape, s₁, h₁, h⟩ := Steps.bind_eq_ok_iff.mp h
        obtain ⟨hs, rfl⟩ := ofExcept_eq_ok_iff.mp h₁
        rw [FieldType.formWithin, hs] at hform
        cases shape with
        | «alias» underlying => exact ih hform hh h
        | _ =>
          cases hform
          cases h
          rfl
      | list element =>
        rw [readWithin] at h
        obtain ⟨w, body, hw, hbody, rfl⟩ := sequence_eq_ok h
        obtain ⟨e, he, rfl⟩ := FieldType.formWithin_list hform
        obtain ⟨rfl, -⟩ := FieldType.elementType_form hw he
        have hinner := ih he (by exact hh) hbody
        change e.loading header _ (count st + 3) = _ at hinner
        rw [Form.loading, hinner]
      | set element =>
        rw [readWithin] at h
        obtain ⟨w, body, hw, hbody, rfl⟩ := sequence_eq_ok h
        obtain ⟨e, he, rfl⟩ := FieldType.formWithin_set hform
        obtain ⟨rfl, -⟩ := FieldType.elementType_form hw he
        have hinner := ih he (by exact hh) hbody
        change e.loading header _ (count st + 3) = _ at hinner
        rw [Form.loading, hinner]
      | map key element =>
        obtain ⟨w, w', kbody, body, mid, hw, hw', hkey, hbody, rfl⟩ := entries_eq_ok h
        obtain ⟨k, e, hk, he, rfl⟩ := FieldType.formWithin_map hform
        obtain ⟨rfl, -⟩ := FieldType.elementType_form hw hk
        obtain ⟨rfl, -⟩ := FieldType.elementType_form hw' he
        obtain ⟨_, hloading⟩ := readWithin_loading (by exact hh) hkey
        have hkeys := ih hk (by exact hh) hkey
        have hinner := ih he (hloading.follows.header_eq.trans hh) hbody
        change k.loading header _ (count st + 4) = _ at hkeys
        rw [Form.loading, hkeys]
        dsimp only
        rw [hinner]
      | void =>
        rw [readWithin] at h
        obtain ⟨s, s₁, h₁, h⟩ := Steps.bind_eq_ok_iff.mp h
        cases h₁
        rw [hh] at h
        cases h
        cases hform
        rfl
      | _ =>
        cases hform
        cases h
        rfl

/-- What is drafted for a write depends on the form of the type only. -/
theorem writeWithin_eq_storing {source : Expr} (hform : type.formWithin t levels' = .ok form)
    (h : writeWithin t levels type source st = .ok code st') :
    form.storing source (count st) = (code, count st') := by
  induction levels generalizing levels' type form source st st' code with
  | zero => cases h
  | succ levels ih =>
    cases levels' with
    | zero => cases hform
    | succ levels' =>
      cases type with
      | identifier name =>
        rw [writeWithin] at h
        obtain ⟨shape, s₁, h₁, h⟩ := Steps.bind_eq_ok_iff.mp h
        obtain ⟨hs, rfl⟩ := ofExcept_eq_ok_iff.mp h₁
        rw [FieldType.formWithin, hs] at hform
        cases shape with
        | «alias» underlying => exact ih hform h
        | _ =>
          cases hform
          cases h
          rfl
      | list element =>
        rw [writeWithin] at h
        obtain ⟨w, body, hw, hbody, rfl⟩ := items_eq_ok h
        obtain ⟨e, he, rfl⟩ := FieldType.formWithin_list hform
        obtain ⟨rfl, -⟩ := FieldType.elementType_form hw he
        have hinner := ih he hbody
        rw [count_issue] at hinner
        rw [Form.storing, hinner]
      | set element =>
        rw [writeWithin] at h
        obtain ⟨w, body, hw, hbody, rfl⟩ := items_eq_ok h
        obtain ⟨e, he, rfl⟩ := FieldType.formWithin_set hform
        obtain ⟨rfl, -⟩ := FieldType.elementType_form hw he
        have hinner := ih he hbody
        rw [count_issue] at hinner
        rw [Form.storing, hinner]
      | map key element =>
        obtain ⟨w, w', kbody, body, mid, hw, hw', hkey, hbody, rfl⟩ := pairs_eq_ok h
        obtain ⟨k, e, hk, he, rfl⟩ := FieldType.formWithin_map hform
        obtain ⟨rfl, -⟩ := FieldType.elementType_form hw hk
        obtain ⟨rfl, -⟩ := FieldType.elementType_form hw' he
        have hkeys := ih hk hkey
        have hinner := ih he hbody
        change k.storing _ (count st + 2) = _ at hkeys
        rw [Form.storing, hkeys]
        dsimp only
        rw [hinner]
      | _ =>
        cases hform
        cases h
        rfl

end Draft

/-! ## Members -/

/-- Code for one member behind another, each with its own numbers. -/
def numbered {α β : Type} (code : α → Nat → β × Nat) : List α → Nat → List β
  | [], _ => []
  | a :: as, n => (code a n).1 :: numbered code as (code a n).2

namespace Member

/-- What is done with a header of the member's id. -/
def loading (m : Member) (n : Nat) : (Int16 × List Stmt) × Nat :=
  if m.isVoid then ((m.id, [.ifWireType headerName m.form.wireType [.skip headerName]
    [.skip headerName]]), n)
  else
    let value := Names.temporary "value" (n + 1)
    let body := m.form.loading headerName value (n + 1)
    ((m.id, [.ifWireType headerName m.form.wireType (body.1 ++ [.stage m.name value])
      [.skip headerName]]), body.2)

def storing (m : Member) (n : Nat) : Stmt × Nat :=
  let body := m.form.storing (.field .this m.name) n
  (.ifPresent (.field .this m.name)
    ([.writeFieldBegin m.name m.form.wireType m.id] ++ body.1 ++ [.writeFieldEnd]), body.2)

end Member

namespace Record

/-- The whole decode procedure. -/
def decode (r : Record) : List Stmt :=
  [.readStructBegin, .loop (StructCodec.fieldLoop (numbered Member.loading r.members 0)),
    .readStructEnd, .construct r.name r.kind (r.sent.map Member.toInit)]

/-- What must hold before anything is sent. -/
def checks (r : Record) : List Stmt :=
  (if r.kind = .union then [.requireSingleField .this r.name (r.members.map (·.name))] else []) ++
    (r.members.filter (·.required)).map fun m => .requirePresent (.field .this m.name) m.name

/-- The whole encode procedure. -/
def encode (r : Record) : List Stmt :=
  r.checks ++ [.writeStructBegin r.name] ++ numbered Member.storing r.sent 0 ++
    [.writeFieldStop, .writeStructEnd]

end Record

/-! ## Procedures -/

theorem checks_eq {fields : List FieldLayout} {r : Record}
    (h : List.Forall₂ LaidOut fields r.members) :
    StructCodec.checks r.kind r.name fields = r.checks := by
  have hnames : fields.map (·.name) = r.members.map (·.name) :=
    Steps.map_eq_of_forall₂ h fun _ _ h => h.name_eq
  have hrequired : List.Forall₂ LaidOut (fields.filter (·.isRequired))
      (r.members.filter (·.required)) :=
    List.rel_filter (fun l m h => by simp [h.required_eq]) h
  rw [StructCodec.checks, Record.checks, hnames]
  congr 1
  refine Steps.map_eq_of_forall₂ hrequired fun l m h => ?_
  rw [StructCodec.fieldOfThis, h.name_eq]

namespace StructCodec

variable {t : SymbolTable} {l : FieldLayout} {m : Member} {st st' : DraftState}

theorem decodeCase_eq {case : Int16 × List Stmt} (hm : GivesMember t l m)
    (hh : st.header = some headerName) (h0 : st.excess = 0)
    (h : decodeCase t l st = .ok case st') :
    m.loading (Draft.count st) = (case, Draft.count st') ∧ Draft.Follows st st' := by
  unfold decodeCase decodeField at h
  obtain ⟨body, s₁, h₁, h⟩ := Steps.bind_eq_ok_iff.mp h
  cases h
  rw [Member.loading, hm.laidOut.wireType_eq, hm.laidOut.id_eq]
  rw [hm.laidOut.isVoid_eq] at h₁
  split at h₁
  · rename_i hvoid
    rw [read_eq_readWithin h0] at h₁
    obtain ⟨_, hloading⟩ := Draft.readWithin_loading hh h₁
    have hcode := Draft.readWithin_eq_loading hm.form_eq hh h₁
    have hform : m.form = .void := beq_iff_eq.mp hvoid
    rw [hform, Form.loading, Prod.mk.injEq] at hcode
    rw [if_pos hvoid, hcode.1, hcode.2]
    exact ⟨rfl, hloading.follows⟩
  · rename_i hvoid
    obtain ⟨x, s₂, h₂, h₁⟩ := Steps.bind_eq_ok_iff.mp h₁
    obtain ⟨rfl, rfl⟩ := Draft.fresh_eq_ok_iff.mp h₂
    obtain ⟨code, s₃, h₃, h₁⟩ := Steps.bind_eq_ok_iff.mp h₁
    cases h₁
    rw [read_eq_readWithin (by exact h0)] at h₃
    obtain ⟨_, hloading⟩ := Draft.readWithin_loading (by exact hh) h₃
    have hcode := Draft.readWithin_eq_loading hm.form_eq (by exact hh) h₃
    rw [Draft.count_issue] at hcode
    rw [if_neg hvoid]
    dsimp only
    rw [hcode, hm.laidOut.name_eq]
    exact ⟨rfl, (Draft.follows_issue _ _).trans hloading.follows⟩

theorem decodeCases_eq {ls : List FieldLayout} {ms : List Member}
    (hms : List.Forall₂ (GivesMember t) ls ms) {cases : List (Int16 × List Stmt)}
    (hh : st.header = some headerName) (h0 : st.excess = 0)
    (h : ls.mapM (decodeCase t) st = .ok cases st') :
    cases = numbered Member.loading ms (Draft.count st) := by
  induction hms generalizing st cases with
  | nil =>
    cases h
    rfl
  | cons hm _ ih =>
    rw [List.mapM_cons] at h
    obtain ⟨case, s₁, h₁, h⟩ := Steps.bind_eq_ok_iff.mp h
    obtain ⟨cases', s₂, h₂, h⟩ := Steps.bind_eq_ok_iff.mp h
    cases h
    obtain ⟨hcase, hfollows⟩ := decodeCase_eq hm hh h0 h₁
    rw [numbered, hcase, ih (hfollows.header_eq.trans hh) (hfollows.excess_eq.trans h0) h₂]

theorem encodeFields_eq {ls : List FieldLayout} {ms : List Member}
    (hms : List.Forall₂ (GivesMember t) ls ms) {stmts : List Stmt} (h0 : st.excess = 0)
    (h : ls.mapM (encodeField t) st = .ok stmts st') :
    stmts = numbered Member.storing ms (Draft.count st) := by
  induction hms generalizing st stmts with
  | nil =>
    cases h
    rfl
  | cons hm _ ih =>
    rw [List.mapM_cons] at h
    obtain ⟨stmt, s₁, h₁, h⟩ := Steps.bind_eq_ok_iff.mp h
    obtain ⟨stmts', s₂, h₂, h⟩ := Steps.bind_eq_ok_iff.mp h
    cases h
    unfold encodeField at h₁
    obtain ⟨code, s₃, h₃, h₁⟩ := Steps.bind_eq_ok_iff.mp h₁
    cases h₁
    rw [write_eq_writeWithin h0, fieldOfThis, hm.laidOut.name_eq] at h₃
    obtain ⟨_, hstoring⟩ := Draft.writeWithin_storing h₃
    have hcode := Draft.writeWithin_eq_storing hm.form_eq h₃
    rw [numbered, Member.storing, hcode, ih (hstoring.follows.excess_eq.trans h0) h₂, fieldOfThis,
      hm.laidOut.name_eq, hm.laidOut.wireType_eq, hm.laidOut.id_eq]

theorem givesMember_of_ofField {struct : String} {f : Field} (hl : DeclaredBy t struct f l)
    (hm : Member.ofField t struct f = .ok m) : GivesMember t l m := by
  have hform := Member.form_of_ofField hm
  rw [← hl.type_eq] at hform
  have hgives := givesMember_toMember hl hform
  have heq : m = l.toMember m.form :=
    Except.ok.inj (hm.symm.trans (ofField_of_givesMember hl hgives))
  rw [heq]
  exact hgives

/-- The layouts of a codec give the members of its record, one by one. -/
theorem givesMembers_of_ofDefinition {kind : StructKind} {d : StructLike} {codec : StructCodec}
    {r : Record} (h : ofDefinition t kind d = .ok codec)
    (hr : Record.ofDefinition t (kind, d) = .ok r) :
    List.Forall₂ (GivesMember t) codec.fields r.members := by
  obtain ⟨ls, hls, h⟩ := Steps.except_bind_eq_ok_iff.mp h
  obtain ⟨dec, -, h⟩ := Steps.except_bind_eq_ok_iff.mp h
  obtain ⟨enc, -, h⟩ := Steps.except_bind_eq_ok_iff.mp h
  cases h
  obtain ⟨ms, hms, hr⟩ := Steps.except_bind_eq_ok_iff.mp hr
  cases hr
  exact Steps.forall₂_comp (R := fun l f => DeclaredBy t d.name f l) (T := GivesMember t)
    (fun _ _ _ => givesMember_of_ofField) (declaredBy_of_ofFields hls).flip
    (Steps.mapM_eq_ok_iff.mp hms)

/-- The codec of a definition has the procedures of its record. -/
theorem ofDefinition_procedures {kind : StructKind} {d : StructLike} {codec : StructCodec}
    (h : ofDefinition t kind d = .ok codec) :
    ∃ r, Record.ofDefinition t (kind, d) = .ok r ∧ Realizes codec r ∧ codec.decode = r.decode ∧
      codec.encode = r.encode := by
  obtain ⟨r, hr, hrealizes⟩ := ofDefinition_realizes h
  refine ⟨r, hr, hrealizes, ?_⟩
  have hgives := givesMembers_of_ofDefinition h hr
  unfold ofDefinition at h
  obtain ⟨ls, hls, h⟩ := Steps.except_bind_eq_ok_iff.mp h
  obtain ⟨dec, hdec, h⟩ := Steps.except_bind_eq_ok_iff.mp h
  obtain ⟨enc, henc, h⟩ := Steps.except_bind_eq_ok_iff.mp h
  cases h
  obtain ⟨ms, -, hr⟩ := Steps.except_bind_eq_ok_iff.mp hr
  cases hr
  have hsent : List.Forall₂ (GivesMember t) (ls.filter (!·.isVoid)) (ms.filter (!·.isVoid)) :=
    List.rel_filter (fun l m h => by simp [h.laidOut.isVoid_eq]) hgives
  obtain ⟨cases, hcases, hdec⟩ := Steps.except_bind_eq_ok_iff.mp hdec
  cases hdec
  obtain ⟨_, hcases⟩ := draft_eq_ok hcases
  obtain ⟨stmts, hstmts, henc⟩ := Steps.except_bind_eq_ok_iff.mp henc
  cases henc
  obtain ⟨_, hstmts⟩ := draft_eq_ok hstmts
  constructor
  · have hinits := Machine.inits_eq hrealizes.laidOut
    dsimp only at hinits ⊢
    rw [decodeProcedure, decodeCases_eq hgives rfl rfl hcases, hinits]
    rfl
  · have hchecks := checks_eq hrealizes.laidOut
    dsimp only at hchecks ⊢
    rw [encodeFields_eq hsent rfl hstmts, hchecks]
    rfl

end StructCodec

end Thrift
