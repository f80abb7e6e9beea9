-- Typedefs are transparent. A document and the same document with typedefs opened give the same
-- records, and a record determines the procedures of its codec; the methods of services name the
-- same exceptions.
import Thrift.Proofs.Assembly
import Thrift.Proofs.Defaults
import Thrift.Proofs.Determined

namespace Thrift

/-! ## Records -/

namespace Member

variable {t t' : SymbolTable} {struct : String} {f f' : Field} {m m' : Member}

/-- A field declares the same member when typedefs are opened. -/
theorem ofField_opens (h : t.Opens t') (hnames : t.names.Nodup) (hformed : t.Formed)
    (hf : f.Opens t f') (hm : ofField t struct f = .ok m) (hm' : ofField t' struct f' = .ok m') :
    m = m' := by
  have hform := FieldType.hasForm_of_formWithin (form_of_ofField hm)
  have hform' := FieldType.hasForm_of_formWithin (form_of_ofField hm')
  have hforms : m.form = m'.form := (hform.opens h hf.type).unique hform'
  unfold ofField at hm hm'
  cases hf with | mk htype =>
  dsimp only at hm'
  rcases hid : f.id with _ | id
  · rw [hid] at hm
    cases hm
  · rw [hid] at hm hm'
    obtain ⟨default, hdefault, hm⟩ := Steps.except_bind_eq_ok_iff.mp hm
    obtain ⟨default', hdefault', hm'⟩ := Steps.except_bind_eq_ok_iff.mp hm'
    obtain ⟨form, -, hm⟩ := Steps.except_bind_eq_ok_iff.mp hm
    obtain ⟨form', -, hm'⟩ := Steps.except_bind_eq_ok_iff.mp hm'
    cases hm
    cases hm'
    dsimp only at hforms
    rw [hforms, FieldLayout.defaultOf_opens h hnames hformed (.mk f htype) hform hdefault hdefault']

end Member

/-- A struct that is sent, and the same one with typedefs opened. -/
def CarrierOpens (t : SymbolTable) (x x' : StructKind × StructLike) : Prop :=
  x'.1 = x.1 ∧ x.2.Opens t x'.2

/-- A struct has the same record when typedefs are opened. -/
theorem Record.ofDefinition_opens {t t' : SymbolTable} (h : t.Opens t') (hnames : t.names.Nodup)
    (hformed : t.Formed) {x x' : StructKind × StructLike} (hx : CarrierOpens t x x') {r r' : Record}
    (hr : ofDefinition t x = .ok r) (hr' : ofDefinition t' x' = .ok r') : r = r' := by
  obtain ⟨kind, d⟩ := x
  obtain ⟨_, d'⟩ := x'
  obtain ⟨rfl, hd⟩ := hx
  obtain ⟨ms, hms, hr⟩ := Steps.except_bind_eq_ok_iff.mp hr
  obtain ⟨ms', hms', hr'⟩ := Steps.except_bind_eq_ok_iff.mp hr'
  cases hr
  cases hr'
  dsimp only at hd hms hms' ⊢
  rw [hd.name_eq] at hms' ⊢
  rw [Steps.mapM_unique (fun f f' m m' hf => Member.ofField_opens h hnames hformed hf) hd.fields
    hms hms']

/-! ## Codecs -/

/-- The layouts of fields agree in all that goes over the wire. -/
structure FieldLayout.Alike (l l' : FieldLayout) : Prop where
  name_eq : l'.name = l.name
  id_eq : l'.id = l.id
  wireType_eq : l'.wireType = l.wireType
  default_eq : l'.default = l.default

structure StructCodec.Alike (codec codec' : StructCodec) : Prop where
  name_eq : codec'.name = codec.name
  kind_eq : codec'.kind = codec.kind
  decode_eq : codec'.decode = codec.decode
  encode_eq : codec'.encode = codec.encode
  fields : List.Forall₂ FieldLayout.Alike codec.fields codec'.fields

/-- The methods are the same up to the spelling of the returned type. -/
def Method.Alike (m m' : Method) : Prop := m' = { m with returnType := m'.returnType }

structure ServiceCodec.Alike (s s' : ServiceCodec) : Prop where
  name_eq : s'.name = s.name
  parent_eq : s'.parent = s.parent
  methods : List.Forall₂ Method.Alike s.methods s'.methods

theorem Method.Alike.name_eq {m m' : Method} (h : m.Alike m') : m'.name = m.name := by
  rw [h]

theorem LaidOut.alike {l l' : FieldLayout} {m : Member} (h : LaidOut l m) (h' : LaidOut l' m) :
    l.Alike l' :=
  ⟨h'.name_eq.trans h.name_eq.symm, h'.id_eq.trans h.id_eq.symm,
    h'.wireType_eq.trans h.wireType_eq.symm, h'.default_eq.trans h.default_eq.symm⟩

theorem StructCodec.ofCarrier_opens {t t' : SymbolTable} (h : t.Opens t') (hnames : t.names.Nodup)
    (hformed : t.Formed) {x x' : StructKind × StructLike} (hx : CarrierOpens t x x')
    {codec codec' : StructCodec} (hc : ofCarrier t x = .ok codec)
    (hc' : ofCarrier t' x' = .ok codec') : codec.Alike codec' := by
  obtain ⟨r, hr, hrealizes, hdecode, hencode⟩ := ofDefinition_procedures hc
  obtain ⟨r', hr', hrealizes', hdecode', hencode'⟩ := ofDefinition_procedures hc'
  obtain rfl : r = r' := Record.ofDefinition_opens h hnames hformed hx hr hr'
  refine ⟨hrealizes'.name_eq.trans hrealizes.name_eq.symm,
    hrealizes'.kind_eq.trans hrealizes.kind_eq.symm, hdecode'.trans hdecode.symm,
    hencode'.trans hencode.symm, ?_⟩
  exact Steps.forall₂_comp (R := LaidOut) (S := fun m l' => LaidOut l' m)
    (fun _ _ _ => LaidOut.alike) hrealizes.laidOut hrealizes'.laidOut.flip

/-! ## Services -/

namespace Service

variable {t t' : SymbolTable} (h : t.Opens t')

include h

theorem exceptionSlot_opens {struct : String} {f f' : Field} (hf : f.Opens t f')
    {slot slot' : ExceptionSlot} (hs : exceptionSlot t struct f = .ok slot)
    (hs' : exceptionSlot t' struct f' = .ok slot') : slot = slot' := by
  unfold exceptionSlot at hs hs'
  cases hf with | mk htype =>
  dsimp only at hs'
  rcases hid : f.id with _ | id
  · rw [hid] at hs
    cases hs
  · rw [hid] at hs hs'
    obtain ⟨name, hname, hs⟩ := Steps.except_bind_eq_ok_iff.mp hs
    obtain ⟨name', hname', hs'⟩ := Steps.except_bind_eq_ok_iff.mp hs'
    cases hs
    cases hs'
    have hform := (FieldType.hasForm_of_exceptionName hname).opens h htype
    cases hform.unique (FieldType.hasForm_of_exceptionName hname')
    rfl

theorem methodOf_opens {s s' : Service} (hs : s.Opens t s') {f f' : Function} (hf : f.Opens t f')
    {m m' : Method} (hm : methodOf t s f = .ok m) (hm' : methodOf t' s' f' = .ok m') :
    m.Alike m' := by
  unfold methodOf at hm hm'
  rw [hs.name_eq] at hm'
  cases hf with | mk _ _ hthrows =>
  obtain ⟨slots, hslots, hm⟩ := Steps.except_bind_eq_ok_iff.mp hm
  obtain ⟨slots', hslots', hm'⟩ := Steps.except_bind_eq_ok_iff.mp hm'
  cases hm
  cases hm'
  have hsame : slots = slots' := by
    refine Steps.mapM_unique ?_ hthrows hslots hslots'
    intro a b slot slot' hf hslot hslot'
    exact exceptionSlot_opens h hf hslot hslot'
  rw [hsame]
  rfl

omit h

theorem addMethod_alike {m m' : Method} (hm : m.Alike m') {ms ms' : List Method}
    (hms : List.Forall₂ Method.Alike ms ms') :
    List.Forall₂ Method.Alike (addMethod m ms) (addMethod m' ms') := by
  induction hms with
  | nil => exact .cons hm .nil
  | @cons n n' ns ns' hn hns ih =>
    rw [addMethod, addMethod, hn.name_eq, hm.name_eq]
    split
    · exact .cons hm hns
    · exact .cons hn ih

include h

theorem addMethods_alike {s s' : Service} (hs : s.Opens t s') {ms ms' r r' : List Method}
    (hms : List.Forall₂ Method.Alike ms ms') (hr : addMethods t ms s = .ok r)
    (hr' : addMethods t' ms' s' = .ok r') : List.Forall₂ Method.Alike r r' := by
  refine Steps.foldlM_of_forall₂ (Q := List.Forall₂ Method.Alike) ?_ hs.functions hms hr hr'
  intro f f' ms ms₁ ms' ms₁' hf hms hstep hstep'
  obtain ⟨m, hm, hstep⟩ := Steps.except_bind_eq_ok_iff.mp hstep
  obtain ⟨m', hm', hstep'⟩ := Steps.except_bind_eq_ok_iff.mp hstep'
  cases hstep
  cases hstep'
  exact addMethod_alike (methodOf_opens h hs hf hm hm') hms

theorem service_opens {name : String} {s s' : Service} (hs : t.service name = .ok s)
    (hs' : t'.service name = .ok s') : s.Opens t s' := by
  obtain ⟨_, hlookup, hopens⟩ := h.lookup_some (SymbolTable.lookup_of_service hs)
  cases (SymbolTable.lookup_of_service hs').symm.trans hlookup
  cases hopens with
  | service hopens => exact hopens

/-- The services that a service extends are the same up to opened types. -/
theorem lineage_opens {origin : String} {budget : Nat} {s s' : Service} (hs : s.Opens t s')
    {chain chain' line line' : List Service} (hchain : List.Forall₂ (Service.Opens t) chain chain')
    (hl : lineage t origin budget s chain = .ok line)
    (hl' : lineage t' origin budget s' chain' = .ok line') :
    List.Forall₂ (Service.Opens t) line line' := by
  induction budget generalizing s s' chain chain' with
  | zero => cases hl
  | succ budget ih =>
    rw [lineage] at hl hl'
    rw [hs.parent_eq] at hl'
    rcases hp : s.parent with _ | parent
    · rw [hp] at hl hl'
      cases hl
      cases hl'
      exact .cons hs hchain
    · rw [hp] at hl hl'
      dsimp only at hl hl'
      rcases hnext : t.service parent with cause | next
      · rw [hnext] at hl
        cases hl
      · rcases hnext' : t'.service parent with cause | next'
        · rw [hnext'] at hl'
          cases hl'
        · rw [hnext] at hl
          rw [hnext'] at hl'
          dsimp only at hl hl'
          split at hl
          · cases hl
          · split at hl'
            · cases hl'
            · exact ih (service_opens h hnext hnext') (.cons hs hchain) hl hl'

theorem codec_opens {s s' : Service} (hs : s.Opens t s') {codec codec' : ServiceCodec}
    (hc : s.codec t = .ok codec) (hc' : s'.codec t' = .ok codec') : codec.Alike codec' := by
  obtain ⟨line, hline, hc⟩ := Steps.except_bind_eq_ok_iff.mp hc
  obtain ⟨line', hline', hc'⟩ := Steps.except_bind_eq_ok_iff.mp hc'
  obtain ⟨methods, hmethods, hc⟩ := Steps.except_bind_eq_ok_iff.mp hc
  obtain ⟨methods', hmethods', hc'⟩ := Steps.except_bind_eq_ok_iff.mp hc'
  cases hc
  cases hc'
  rw [h.size_eq, hs.name_eq] at hline'
  have hlineage := lineage_opens h hs .nil hline hline'
  refine ⟨hs.name_eq, hs.parent_eq, ?_⟩
  refine Steps.foldlM_of_forall₂ (Q := List.Forall₂ Method.Alike) ?_ hlineage .nil hmethods hmethods'
  intro a b ms ms₁ ms' ms₁' hab hms
  exact addMethods_alike h hab hms

end Service

/-! ## Documents -/

namespace Service

variable {t : SymbolTable} {s s' : Service}

theorem argsStruct_opens (service : String) {f f' : Function} (hf : f.Opens t f') :
    (argsStruct service f).Opens t (argsStruct service f') := by
  cases hf with | mk _ hfields _ =>
  exact .mk (argsStruct service f) hfields

/-- The results of functions have the same fields up to opened types. -/
theorem resultStruct_opens (service : String) {f f' : Function} (hf : f.Opens t f') :
    (resultStruct service f).Opens t (resultStruct service f') := by
  cases hf with | mk hr _ ht =>
  refine .mk (resultStruct service f) (.cons (.mk _ hr) ?_)
  refine List.forall₂_map_left_iff.mpr (List.forall₂_map_right_iff.mpr (ht.imp ?_))
  intro f f' hf
  cases hf with | mk htype =>
  exact .mk { f with requiredness := .optional, default := none } htype

theorem structsOf_opens (service : String) {f f' : Function} (hf : f.Opens t f') :
    List.Forall₂ (StructLike.Opens t) (structsOf service f) (structsOf service f') := by
  unfold structsOf
  rw [hf.oneway_eq]
  split
  · exact .cons (argsStruct_opens service hf) .nil
  · exact .cons (argsStruct_opens service hf) (.cons (resultStruct_opens service hf) .nil)

theorem carriers_opens (hs : s.Opens t s') :
    List.Forall₂ (CarrierOpens t) s.carriers s'.carriers := by
  unfold carriers
  rw [hs.name_eq]
  refine List.forall₂_map_left_iff.mpr (List.forall₂_map_right_iff.mpr ?_)
  have hstructs := List.rel_flatMap hs.functions fun _ _ => structsOf_opens s.name
  exact hstructs.imp fun _ _ hd => ⟨rfl, hd⟩

end Service

namespace Document

variable {d d' : Document} {t t' : SymbolTable}

theorem structLikes_opens (h : List.Forall₂ (Statement.Opens t) d.body d'.body) :
    List.Forall₂ (CarrierOpens t) d.structLikes d'.structLikes := by
  refine List.rel_filterMap (fun st st' hst => ?_) h
  cases hst with
  | other hnone => cases st <;> cases hnone <;> exact .none
  | definition hx hx' hopens =>
    cases hopens with
    | structLike hd =>
      cases st <;> cases hx
      cases st' <;> cases hx'
      exact .some ⟨rfl, hd⟩
    | _ =>
      cases st <;> cases hx
      cases st' <;> cases hx'
      exact .none

theorem services_opens (h : List.Forall₂ (Statement.Opens t) d.body d'.body) :
    List.Forall₂ (Service.Opens t) d.services d'.services := by
  refine List.rel_filterMap (fun st st' hst => ?_) h
  cases hst with
  | other hnone => cases st <;> cases hnone <;> exact .none
  | definition hx hx' hopens =>
    cases hopens with
    | service hs =>
      cases st <;> cases hx
      cases st' <;> cases hx'
      exact .some hs
    | _ =>
      cases st <;> cases hx
      cases st' <;> cases hx'
      exact .none

theorem carriers_opens (h : List.Forall₂ (Statement.Opens t) d.body d'.body) :
    List.Forall₂ (CarrierOpens t) d.carriers d'.carriers :=
  List.rel_append (structLikes_opens h)
    (List.rel_flatMap (services_opens h) fun _ _ hs => Service.carriers_opens hs)

/-- In a document that compiles every field has a form. -/
theorem formed_of_compile {c : Compiled} (ht : SymbolTable.ofDocument d = .ok t)
    (hstructs : d.carriers.mapM (StructCodec.ofCarrier t) = .ok c.structs) : t.Formed := by
  intro kind struct hmem f hf
  have hcarrier : (kind, struct) ∈ d.carriers :=
    List.mem_append_left _ (SymbolTable.mem_structLikes ht hmem)
  obtain ⟨codec, -, hcodec⟩ := Steps.forall₂_mem_left (Steps.mapM_eq_ok_iff.mp hstructs) hcarrier
  obtain ⟨r, hr, -⟩ := StructCodec.ofDefinition_realizes hcodec
  obtain ⟨ms, hms, -⟩ := Steps.except_bind_eq_ok_iff.mp hr
  obtain ⟨m, -, hm⟩ := Steps.forall₂_mem_left (Steps.mapM_eq_ok_iff.mp hms) hf
  exact ⟨m.form, FieldType.hasForm_of_formWithin (Member.form_of_ofField hm)⟩

/-- Opening typedefs changes neither what goes over the wire nor the exceptions of methods. -/
theorem typedefs_transparent (h : d.Opens d') {c c' : Compiled} (hc : d.compile = .ok c)
    (hc' : d'.compile = .ok c') :
    List.Forall₂ StructCodec.Alike c.structs c'.structs ∧
      List.Forall₂ ServiceCodec.Alike c.services c'.services := by
  obtain ⟨t, ht, hbody⟩ := h
  obtain ⟨_, ht₀, hc⟩ := compile_eq_ok_iff.mp hc
  cases ht.symm.trans ht₀
  obtain ⟨t', ht', hc'⟩ := compile_eq_ok_iff.mp hc'
  obtain ⟨hstructs, -, hservices⟩ := Compiled.ofSymbols_eq_ok_iff.mp hc
  obtain ⟨hstructs', -, hservices'⟩ := Compiled.ofSymbols_eq_ok_iff.mp hc'
  have hopens := SymbolTable.opens_of_document ht ht' hbody
  have hnames : t.names.Nodup := SymbolTable.names_of_document ht
  have hformed := formed_of_compile ht hstructs
  constructor
  · refine Steps.mapM_of_forall₂ ?_ (carriers_opens hbody) hstructs hstructs'
    intro x x' codec codec' hx hcodec hcodec'
    exact StructCodec.ofCarrier_opens hopens hnames hformed hx hcodec hcodec'
  · refine Steps.mapM_of_forall₂ ?_ (services_opens hbody) hservices hservices'
    intro s s' codec codec' hs hcodec hcodec'
    exact Service.codec_opens hopens hs hcodec hcodec'

/-! ## A document with typedefs -/

def stamp : Typedef := ⟨"Stamp", .i64⟩

def stamps : Typedef := ⟨"Stamps", .list (.identifier "Stamp")⟩

def stampsOpened : Typedef := ⟨"Stamps", .list .i64⟩

def missing : Typedef := ⟨"Missing", .identifier "Lost"⟩

/-- A document that uses a typedef of a typedef, typedefs inside containers, a default behind a
typedef and an exception behind a typedef. -/
def parcel : Document := ⟨[
  (.typedef stamp),
  (.typedef stamps),
  (.typedef missing),
  .structLike .exception ⟨"Lost", [⟨"reason", some 1, .string, .default, none, none⟩]⟩,
  .structLike .struct ⟨"Parcel",
    [⟨"sent", some 1, .identifier "Stamps", .default, none, none⟩,
      ⟨"steps", some 2, .map .string (.identifier "Stamp"), .default, none, none⟩,
      ⟨"due", some 3, .identifier "Stamp", .default, some (.int 5), none⟩]⟩,
  .service ⟨"Post", none, [⟨"find", .identifier "Stamps", [],
    [⟨"missing", some 1, .identifier "Missing", .default, none, none⟩], false⟩]⟩]⟩

/-- The same document with most of its typedefs opened. -/
def parcelOpened : Document := ⟨[
  (.typedef stamp),
  (.typedef stampsOpened),
  (.typedef missing),
  .structLike .exception ⟨"Lost", [⟨"reason", some 1, .string, .default, none, none⟩]⟩,
  .structLike .struct ⟨"Parcel",
    [⟨"sent", some 1, .list (.identifier "Stamp"), .default, none, none⟩,
      ⟨"steps", some 2, .map .string .i64, .default, none, none⟩,
      ⟨"due", some 3, .i64, .default, some (.int 5), none⟩]⟩,
  .service ⟨"Post", none, [⟨"find", .list .i64, [],
    [⟨"missing", some 1, .identifier "Lost", .default, none, none⟩], false⟩]⟩]⟩

theorem parcel_opens : parcel.Opens parcelOpened := by
  let t : SymbolTable := ⟨parcel.body.filterMap (·.definition?)⟩
  have hstamp : (FieldType.identifier "Stamp").Opens t .i64 :=
    .alias (d := stamp) rfl (.refl _)
  have hstamps : ∀ {e}, (FieldType.identifier "Stamp").Opens t e →
      (FieldType.identifier "Stamps").Opens t (.list e) := fun he =>
    .alias (d := stamps) rfl (.list he)
  have hmissing : (FieldType.identifier "Missing").Opens t (.identifier "Lost") :=
    .alias (d := missing) rfl (.refl _)
  refine ⟨t, rfl, ?_⟩
  refine .cons (.definition rfl rfl (.typedef _ (.refl _))) ?_
  refine .cons (.definition rfl rfl (.typedef _ (.list hstamp))) ?_
  refine .cons (.definition rfl rfl (.typedef _ (.refl _))) ?_
  refine .cons (.definition rfl rfl (.structLike (.mk _ (.cons (.mk _ (.refl _)) .nil)))) ?_
  refine .cons (.definition rfl rfl (.structLike (.mk _ ?_))) ?_
  · refine .cons (.mk _ (hstamps (.refl _))) ?_
    exact .cons (.mk _ (.map (.refl _) hstamp)) (.cons (.mk _ hstamp) .nil)
  · refine .cons (.definition rfl rfl (.service (.mk _ ?_))) .nil
    exact .cons (.mk _ (hstamps hstamp) .nil (.cons (.mk _ hmissing) .nil)) .nil

/-- The parcel is sent in the same way, however its types are spelled. -/
theorem typedefs_transparent_parcel : parcel.Opens parcelOpened ∧
    ∃ c c', parcel.compile = .ok c ∧ parcelOpened.compile = .ok c' ∧
      List.Forall₂ StructCodec.Alike c.structs c'.structs ∧
        List.Forall₂ ServiceCodec.Alike c.services c'.services :=
  ⟨parcel_opens, _, _, rfl, rfl, typedefs_transparent parcel_opens rfl rfl⟩

end Document

end Thrift
