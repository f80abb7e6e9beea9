-- Documents that grow. A struct gets one more field, and definitions of types may join; whoever
-- still has the old document reads what is written by the new one, without that field.
import Mathlib.Data.List.Nodup
import Thrift.Proofs.Forward
import Thrift.Proofs.Widening

namespace Thrift

/-! ## Reading by a part of a schema -/

section Parts

variable {c : WireConfig} {nested nested' : String → Reading StructValue}

/-- Reading a value asks for the structs that its form names only. -/
theorem Form.read_congr {form : Form} (h : ∀ name ∈ form.structs, nested name = nested' name) :
    form.read c nested = form.read c nested' := by
  induction form with
  | scalar kind => rfl
  | struct name => rw [read, read, h name List.mem_cons_self]
  | list element ih => rw [read, read, ih h]
  | set element ih => rw [read, read, ih h]
  | map key value ihk ihv =>
    have hk := ihk fun name hname => h name (List.mem_append_left _ hname)
    have hv := ihv fun name hname => h name (List.mem_append_right _ hname)
    rw [read, read, hk, hv]
  | void => rfl

theorem Record.read_congr {finish : Finish} {r : Record}
    (h : ∀ name ∈ r.structs, nested name = nested' name) :
    r.read finish c nested = r.read finish c nested' := by
  have hfield : r.readField c nested = r.readField c nested' := by
    funext header found
    unfold readField
    split
    · rename_i m hm
      have hform : m.form.read c nested = m.form.read c nested' := by
        apply Form.read_congr
        intro name hname
        exact h name (List.mem_flatMap.mpr ⟨m, List.mem_of_find?_eq_some hm, hname⟩)
      rw [Member.readValue, Member.readValue, hform]
    · rfl
  rw [read, read, hfield]

/-- A closed schema reads like every schema that has its records. -/
theorem Schema.Closed.readWithin_eq {s s' : Schema} (hs : s.Closed)
    (h : ∀ name r, s.record? name = some r → s'.record? name = some r) (finish : Finish)
    (levels : Nat) {name : String} {r : Record} (hr : s.record? name = some r) :
    s.readWithin finish c levels name = s'.readWithin finish c levels name := by
  induction levels generalizing name r with
  | zero => rfl
  | succ levels ih =>
    rw [readWithin, readWithin, hr, h name r hr]
    apply Record.read_congr
    intro inner hinner
    obtain ⟨r', hr'⟩ := hs r (mem_of_record? hr) inner hinner
    exact ih hr'

end Parts

/-! ## Growth -/

/-- The statement defines a type. -/
def Statement.isType : Statement → Bool
  | structLike _ _ | enumeration _ | typedef _ => true
  | _ => false

/-- Nothing is found under the name, neither as it stands nor under its last segment. -/
def Document.Free (d : Document) (name : String) : Prop :=
  ∀ st ∈ d.body, ∀ n, st.name? = some n → n ≠ name ∧ n ≠ baseName name

/-- How a document grows: the struct that is told gets a field between its fields, and the
statements before and after it get more. -/
structure Growth where
  kind : StructKind
  struct : String
  field : Field
  fieldsBefore : List Field
  fieldsAfter : List Field
  before : List Statement
  after : List Statement
  before' : List Statement
  after' : List Statement

namespace Growth

def oldStruct (g : Growth) : StructLike := ⟨g.struct, g.fieldsBefore ++ g.fieldsAfter⟩

def newStruct (g : Growth) : StructLike := ⟨g.struct, g.fieldsBefore ++ g.field :: g.fieldsAfter⟩

def old (g : Growth) : Document := ⟨g.before ++ .structLike g.kind g.oldStruct :: g.after⟩

def new (g : Growth) : Document := ⟨g.before' ++ .structLike g.kind g.newStruct :: g.after'⟩

/-- Only the new field is left out. -/
def omission (g : Growth) : Omission :=
  fun struct field => struct == g.struct && field == g.field.name

/-- The field has a name of its own. The statements stay in their order, and those that join
define types, under names that stood for nothing. -/
structure Proper (g : Growth) : Prop where
  name_new : g.field.name ∉ g.oldStruct.fields.map (·.name)
  before_kept : g.before.Sublist g.before'
  after_kept : g.after.Sublist g.after'
  joined : ∀ st ∈ g.before' ++ g.after', st ∈ g.before ++ g.after ∨
    st.isType = true ∧ ∀ name, st.name? = some name → g.old.Free name

theorem omission_eq_true_iff {g : Growth} {struct field : String} :
    g.omission struct field = true ↔ struct = g.struct ∧ field = g.field.name := by
  simp [omission]

theorem omission_of_ne {g : Growth} {struct : String} (h : struct ≠ g.struct) (field : String) :
    g.omission struct field = false := by
  simp [omission, h]

end Growth

/-! ## Tables -/

namespace SymbolTable

theorem name_of_definition? {st : Statement} {x : Definition} (h : st.definition? = some x) :
    st.name? = some x.name := by
  cases st <;> cases h <;> rfl

theorem mem_of_document {d : Document} {t : SymbolTable} (h : ofDocument d = .ok t)
    {x : Definition} : x ∈ t.definitions ↔ ∃ st ∈ d.body, st.definition? = some x := by
  rw [definitions_of_document h]
  exact List.mem_filterMap

/-- A name that is free stands for nothing. -/
theorem lookup_of_free {d : Document} {t : SymbolTable} (h : ofDocument d = .ok t) {name : String}
    (hfree : d.Free name) : t.lookup name = none := by
  have hnone : ∀ key, (∀ st ∈ d.body, ∀ n, st.name? = some n → n ≠ key) → t.find? key = none := by
    intro key hkey
    rw [find?, List.find?_eq_none]
    intro x hx heq
    obtain ⟨st, hst, hdef⟩ := (mem_of_document h).mp hx
    exact hkey st hst _ (name_of_definition? hdef) (beq_iff_eq.mp heq)
  rw [lookup, hnone name fun st hst n hn => (hfree st hst n hn).1,
    hnone (baseName name) fun st hst n hn => (hfree st hst n hn).2]
  rfl

end SymbolTable

theorem Definition.widens_self {o : Omission} {x : Definition} (h : ∀ f, o x.name f = false) :
    x.Widens o x := by
  cases x with
  | structLike kind d => exact .structLike ⟨rfl, fun f _ => h f.name, fun _ _ hf => hf⟩
  | enumeration d => exact .enumeration d
  | typedef d => exact .typedef d
  | constant d => exact .constant d
  | service d => exact .service d

namespace Growth

variable {g : Growth} (hg : g.Proper)

include hg

theorem kept_of_mem {f : Field} (h : f ∈ g.oldStruct.fields) :
    g.omission g.struct f.name = false := by
  by_contra homit
  rw [Bool.not_eq_false, omission_eq_true_iff] at homit
  exact hg.name_new (homit.2 ▸ List.mem_map_of_mem h)

theorem struct_widens : g.oldStruct.Widens g.omission g.newStruct := by
  refine ⟨rfl, fun f hf => kept_of_mem hg hf, fun key f hf => ?_⟩
  have hkey : f.name = key := by
    have hfound := List.find?_some hf
    exact beq_iff_eq.mp hfound
  have hne : g.field.name ≠ key := by
    intro heq
    apply hg.name_new
    rw [heq, ← hkey]
    exact List.mem_map_of_mem (List.mem_of_find?_eq_some hf)
  rw [oldStruct, List.find?_append] at hf
  rw [newStruct, List.find?_append, List.find?_cons_of_neg (by simpa using hne)]
  exact hf

theorem mem_new {st : Statement} (h : st ∈ g.before ++ g.after) : st ∈ g.new.body := by
  rcases List.mem_append.mp h with h | h
  · exact List.mem_append_left _ (hg.before_kept.subset h)
  · exact List.mem_append_right _ (List.mem_cons_of_mem _ (hg.after_kept.subset h))

omit hg

theorem mem_old_iff {st : Statement} :
    st ∈ g.old.body ↔ st = .structLike g.kind g.oldStruct ∨ st ∈ g.before ++ g.after := by
  simp [old]
  tauto

theorem mem_new_iff {st : Statement} :
    st ∈ g.new.body ↔ st = .structLike g.kind g.newStruct ∨ st ∈ g.before' ++ g.after' := by
  simp [new]
  tauto

variable {t t' : SymbolTable} (ht : SymbolTable.ofDocument g.old = .ok t)
  (ht' : SymbolTable.ofDocument g.new = .ok t')

include ht in
theorem definitions_old : t.definitions = g.before.filterMap (·.definition?) ++
    .structLike g.kind g.oldStruct :: g.after.filterMap (·.definition?) := by
  rw [SymbolTable.definitions_of_document ht, old, List.filterMap_append, List.filterMap_cons_some]
  rfl

include ht' in
theorem definitions_new : t'.definitions = g.before'.filterMap (·.definition?) ++
    .structLike g.kind g.newStruct :: g.after'.filterMap (·.definition?) := by
  rw [SymbolTable.definitions_of_document ht', new, List.filterMap_append,
    List.filterMap_cons_some]
  rfl

include ht

/-- No other statement defines the struct. -/
theorem name_ne {st : Statement} (hst : st ∈ g.before ++ g.after) {x : Definition}
    (hx : st.definition? = some x) : x.name ≠ g.struct := by
  have hnames := SymbolTable.names_of_document ht
  rw [definitions_old ht, List.map_append, List.map_cons, List.nodup_middle, List.nodup_cons,
    ← List.map_append, ← List.filterMap_append] at hnames
  intro heq
  apply hnames.1
  have hmem := List.mem_map_of_mem (f := (·.name)) (List.mem_filterMap.mpr ⟨st, hst, hx⟩)
  rw [heq] at hmem
  exact hmem

include ht' hg

theorem exists_new {x : Definition} (hx : x ∈ t.definitions) :
    ∃ y ∈ t'.definitions, x.Widens g.omission y ∧ y.name = x.name := by
  obtain ⟨st, hst, hdef⟩ := (SymbolTable.mem_of_document ht).mp hx
  rcases mem_old_iff.mp hst with rfl | hst
  · cases hdef
    refine ⟨.structLike g.kind g.newStruct, ?_, .structLike (struct_widens hg), rfl⟩
    exact (SymbolTable.mem_of_document ht').mpr ⟨_, mem_new_iff.mpr (.inl rfl), rfl⟩
  · have hne := name_ne ht hst hdef
    refine ⟨x, ?_, Definition.widens_self fun f => omission_of_ne hne f, rfl⟩
    exact (SymbolTable.mem_of_document ht').mpr ⟨st, mem_new hg hst, hdef⟩

theorem exists_old {y : Definition} (hy : y ∈ t'.definitions) :
    (∃ x ∈ t.definitions, x.Widens g.omission y ∧ x.name = y.name) ∨
      (∀ d, y ≠ .constant d) ∧ t.lookup y.name = none := by
  obtain ⟨st, hst, hdef⟩ := (SymbolTable.mem_of_document ht').mp hy
  rcases mem_new_iff.mp hst with rfl | hst
  · cases hdef
    refine .inl ⟨.structLike g.kind g.oldStruct, ?_, .structLike (struct_widens hg), rfl⟩
    exact (SymbolTable.mem_of_document ht).mpr ⟨_, mem_old_iff.mpr (.inl rfl), rfl⟩
  · rcases hg.joined st hst with hold | ⟨htype, hfree⟩
    · have hne := name_ne ht hold hdef
      refine .inl ⟨y, ?_, Definition.widens_self fun f => omission_of_ne hne f, rfl⟩
      exact (SymbolTable.mem_of_document ht).mpr ⟨st, mem_old_iff.mpr (.inr hold), hdef⟩
    · refine .inr ⟨?_, SymbolTable.lookup_of_free ht
        (hfree _ (SymbolTable.name_of_definition? hdef))⟩
      rintro d rfl
      cases st <;> cases hdef
      cases htype

theorem find_new {name : String} {x : Definition} (hx : t.find? name = some x) :
    ∃ y, t'.find? name = some y ∧ x.Widens g.omission y := by
  have hname : x.name = name := by
    have hfound := List.find?_some hx
    exact beq_iff_eq.mp hfound
  obtain ⟨y, hy, hwidens, heq⟩ := exists_new hg ht ht' (SymbolTable.mem_of_find? hx)
  have hfound := find?_of_nodup (SymbolTable.names_of_document ht') hy
  rw [heq, hname] at hfound
  exact ⟨y, hfound, hwidens⟩

/-- What is found under a name was found under it before, or is no constant and new. -/
theorem find_old {name : String} {y : Definition} (hy : t'.find? name = some y) :
    (∃ x, t.find? name = some x ∧ x.Widens g.omission y) ∨
      (∀ d, y ≠ .constant d) ∧ t.lookup name = none := by
  have hname : y.name = name := by
    have hfound := List.find?_some hy
    exact beq_iff_eq.mp hfound
  rcases exists_old hg ht ht' (SymbolTable.mem_of_find? hy) with ⟨x, hx, hwidens, heq⟩ | hnew
  · have hfound := find?_of_nodup (SymbolTable.names_of_document ht) hx
    rw [heq, hname] at hfound
    exact .inl ⟨x, hfound, hwidens⟩
  · rw [hname] at hnew
    exact .inr hnew

theorem find_constant {name : String} {d : Constant} (h : t'.find? name = some (.constant d)) :
    t.find? name = some (.constant d) := by
  rcases find_old hg ht ht' h with ⟨x, hx, hwidens⟩ | hnew
  · cases hwidens
    exact hx
  · exact absurd rfl (hnew.1 d)

theorem size_le : t.size ≤ t'.size := by
  have hbefore := (hg.before_kept.filterMap (·.definition?)).length_le
  have hafter := (hg.after_kept.filterMap (·.definition?)).length_le
  rw [SymbolTable.size, SymbolTable.size, definitions_old ht, definitions_new ht']
  simp only [List.length_append, List.length_cons]
  omega

/-- The table of the new document knows what the table of the old one knows. -/
theorem table_widens : t.Widens g.omission t' := by
  refine ⟨fun name x hx => ?_, fun name d hd => ?_, size_le hg ht ht'⟩
  · rcases Option.or_eq_some_iff.mp hx with hexact | ⟨hnone, hbase⟩
    · obtain ⟨y, hy, hwidens⟩ := find_new hg ht ht' hexact
      exact ⟨y, Option.or_eq_some_iff.mpr (.inl hy), hwidens⟩
    · obtain ⟨y, hy, hwidens⟩ := find_new hg ht ht' hbase
      refine ⟨y, Option.or_eq_some_iff.mpr (.inr ⟨?_, hy⟩), hwidens⟩
      -- A definition of exactly this name would have taken the place of the one that was found.
      rw [Option.eq_none_iff_forall_ne_some]
      intro z hz
      rcases find_old hg ht ht' hz with ⟨w, hw, -⟩ | hnew
      · rw [hnone] at hw
        cases hw
      · rw [hx] at hnew
        cases hnew.2
  · rcases Option.or_eq_some_iff.mp hd with hexact | ⟨hnone, hbase⟩
    · exact Option.or_eq_some_iff.mpr (.inl (find_constant hg ht ht' hexact))
    · refine Option.or_eq_some_iff.mpr (.inr ⟨?_, find_constant hg ht ht' hbase⟩)
      rw [Option.eq_none_iff_forall_ne_some]
      intro z hz
      obtain ⟨w, hw, -⟩ := find_new hg ht ht' hz
      rw [hnone] at hw
      cases hw

end Growth

/-! ## Records -/

theorem Record.ofDefinition_eq_ok_iff {t : SymbolTable} {kind : StructKind} {d : StructLike}
    {r : Record} : ofDefinition t (kind, d) = .ok r ↔
      ∃ ms, List.Forall₂ (fun f m => Member.ofField t d.name f = .ok m) d.fields ms ∧
        ⟨d.name, kind, ms⟩ = r := by
  unfold ofDefinition
  rw [Steps.except_bind_eq_ok_iff]
  simp only [Steps.mapM_eq_ok_iff]
  refine exists_congr fun ms => and_congr_right fun _ => ?_
  exact ⟨Except.ok.inj, congrArg Except.ok⟩

/-- The members of the fields that are kept are the members that are kept. -/
theorem Member.ofFields_without {o : Omission} {t t' : SymbolTable} (h : t.Widens o t')
    {struct : String} {fs : List Field} {ms ms' : List Member}
    (hms : List.Forall₂ (fun f m => ofField t struct f = .ok m)
      (fs.filter fun f => !o struct f.name) ms)
    (hms' : List.Forall₂ (fun f m => ofField t' struct f = .ok m) fs ms') :
    (ms'.filter fun m => !o struct m.name).map (without o) = ms := by
  induction hms' generalizing ms with
  | nil =>
    cases hms
    rfl
  | @cons f m' fs ms' hm' _ ih =>
    have hname := name_of_ofField hm'
    by_cases homit : o struct f.name = true
    · rw [List.filter_cons_of_neg (by simp [homit])] at hms
      rw [List.filter_cons_of_neg (by simp [hname, homit])]
      exact ih hms
    · rw [List.filter_cons_of_pos (by simpa using homit)] at hms
      obtain ⟨m, rest, hm, hrest, rfl⟩ := List.forall₂_cons_left_iff.mp hms
      obtain ⟨hsame, hwithout⟩ := ofField_widens h hm
      cases hsame.symm.trans hm'
      rw [List.filter_cons_of_pos (by simpa [hname] using homit), List.map_cons, hwithout, ih hrest]

/-- The record of a struct with more fields, less the members of those, is the record of the
struct. -/
theorem Record.ofDefinition_without {o : Omission} {t t' : SymbolTable} (h : t.Widens o t')
    {kind : StructKind} {d d' : StructLike} (hname : d'.name = d.name)
    (hfields : d.fields = d'.fields.filter fun f => !o d.name f.name) {r r' : Record}
    (hr : ofDefinition t (kind, d) = .ok r) (hr' : ofDefinition t' (kind, d') = .ok r') :
    r'.without o = r := by
  obtain ⟨ms, hms, rfl⟩ := ofDefinition_eq_ok_iff.mp hr
  obtain ⟨ms', hms', rfl⟩ := ofDefinition_eq_ok_iff.mp hr'
  rw [hfields] at hms
  rw [hname] at hms'
  rw [without]
  dsimp only
  rw [hname, Member.ofFields_without h hms hms']

namespace Growth

variable {g : Growth} (hg : g.Proper)

include hg

theorem oldFields_eq : g.oldStruct.fields =
    g.newStruct.fields.filter fun f => !g.omission g.struct f.name := by
  have homit : g.omission g.struct g.field.name = true := omission_eq_true_iff.mpr ⟨rfl, rfl⟩
  have hkept : ∀ f ∈ g.oldStruct.fields, (!g.omission g.struct f.name) = true := by
    intro f hf
    rw [kept_of_mem hg hf]
    rfl
  have hold := List.filter_eq_self.mpr hkept
  rw [oldStruct, List.filter_append] at hold
  rw [newStruct, List.filter_append, List.filter_cons_of_neg (by simp [homit]), hold, oldStruct]

/-- Every struct that is sent by the old document is sent by the new one, and only the struct that
grows is another. -/
theorem carrier_new {kind : StructKind} {d : StructLike} (h : (kind, d) ∈ g.old.carriers) :
    (kind, d) = (g.kind, g.oldStruct) ∨ (kind, d) ∈ g.new.carriers := by
  rcases List.mem_append.mp h with h | h
  · obtain ⟨st, hst, hdef⟩ := List.mem_filterMap.mp h
    rcases mem_old_iff.mp hst with rfl | hst
    · cases hdef
      exact .inl rfl
    · refine .inr (List.mem_append_left _ (List.mem_filterMap.mpr ⟨st, mem_new hg hst, hdef⟩))
  · obtain ⟨service, hservice, hin⟩ := List.mem_flatMap.mp h
    obtain ⟨st, hst, hdef⟩ := List.mem_filterMap.mp hservice
    rcases mem_old_iff.mp hst with rfl | hst
    · cases hdef
    · refine .inr (List.mem_append_right _ (List.mem_flatMap.mpr ⟨service, ?_, hin⟩))
      exact List.mem_filterMap.mpr ⟨st, mem_new hg hst, hdef⟩

omit hg

theorem carrier_oldStruct (g : Growth) : (g.kind, g.oldStruct) ∈ g.old.carriers :=
  List.mem_append_left _ (List.mem_filterMap.mpr ⟨_, mem_old_iff.mpr (.inl rfl), rfl⟩)

theorem carrier_newStruct (g : Growth) : (g.kind, g.newStruct) ∈ g.new.carriers :=
  List.mem_append_left _ (List.mem_filterMap.mpr ⟨_, mem_new_iff.mpr (.inl rfl), rfl⟩)

variable {c c' : Compiled} (hc : g.old.compile = .ok c) (hc' : g.new.compile = .ok c')
  {s s' : Schema} (hs : g.old.schema = .ok s) (hs' : g.new.schema = .ok s')
  (hrealizes : c.RealizesSchema s) (hrealizes' : c'.RealizesSchema s')

include hg hc hc' hs hs' hrealizes hrealizes'

/-- The records of the old document are those of the new one without the field. -/
theorem record?_without {name : String} {r : Record} (hr : s.record? name = some r) :
    (s'.without g.omission).record? name = some r := by
  obtain ⟨t, ht, -⟩ := Document.declares_of_compile hc
  obtain ⟨t', ht', -⟩ := Document.declares_of_compile hc'
  have hwidens := table_widens hg ht ht'
  rw [Schema.record?_without]
  by_cases hname : name = g.struct
  · subst hname
    obtain ⟨r₀, hof, hr₀⟩ :=
      Document.record_of_carrier hc ht hs hrealizes (carrier_oldStruct g)
    obtain ⟨r', hof', hr'⟩ :=
      Document.record_of_carrier hc' ht' hs' hrealizes' (carrier_newStruct g)
    cases hr.symm.trans hr₀
    change s'.record? g.struct = some r' at hr'
    have hname : g.newStruct.name = g.oldStruct.name := rfl
    rw [hr', Option.map_some,
      Record.ofDefinition_without hwidens hname (oldFields_eq hg) hof hof']
  · obtain ⟨⟨kind, d⟩, hcarrier, hof⟩ :=
      Document.carrier_of_record ht hs (Schema.mem_of_record? hr)
    have hd : d.name = name := by
      obtain ⟨ms, -, rfl⟩ := Record.ofDefinition_eq_ok_iff.mp hof
      exact Schema.name_of_record? hr
    rcases carrier_new hg hcarrier with heq | hnew
    · cases heq
      exact absurd hd.symm hname
    · obtain ⟨r', hof', hr'⟩ := Document.record_of_carrier hc' ht' hs' hrealizes' hnew
      have hkept : d.fields = d.fields.filter fun f => !g.omission d.name f.name := by
        refine (List.filter_eq_self.mpr fun f _ => ?_).symm
        rw [hd, omission_of_ne hname]
        rfl
      rw [← hd, hr', Option.map_some, Record.ofDefinition_without hwidens rfl hkept hof hof']

end Growth

/-! ## Old readers -/

/-- What the new document encodes and decodes again, the old one decodes without the new field,
whatever follows. Only what an old reader has to pass over may not nest too deep for it, nor be all
that there is of a union. -/
theorem Machine.decode_old {g : Growth} (hg : g.Proper) {c c' : Compiled}
    (hc : g.old.compile = .ok c) (hc' : g.new.compile = .ok c') :
    ∃ s', g.new.schema = .ok s' ∧ ∀ carrier ∈ g.old.carriers,
      ∀ (sending config : WireConfig) (v w : StructValue) (rest rest' : Bytes),
        v.toValue.Within config →
        s'.Skippable g.omission config (.struct carrier.2.name) v.toValue →
        (encodeAs c' sending carrier.2.name v).outcome = .ok () →
        decode c' config carrier.2.name ((encodeAs c' sending carrier.2.name v).bytes ++ rest) =
          .ok w rest' →
        rest' = rest ∧
          decode c config carrier.2.name ((encodeAs c' sending carrier.2.name v).bytes ++ rest) =
            .ok (w.without g.omission) rest := by
  obtain ⟨s, hs, hrealizes⟩ := Compiled.realizes_of_compile hc
  obtain ⟨s', hs', hrealizes'⟩ := Compiled.realizes_of_compile hc'
  obtain ⟨t, ht, -⟩ := Document.declares_of_compile hc
  refine ⟨s', hs', ?_⟩
  intro carrier hcarrier sending config v w rest rest' hwithin hskip hencode hdecode
  have hconforms := (encodeAs_succeeds_iff hrealizes').mp hencode
  obtain ⟨r, -, hr⟩ := Document.record_of_carrier hc ht hs hrealizes hcarrier
  have hclosed := Document.closed_of_compile hc ht hs hrealizes
  have hsame := hclosed.readWithin_eq (c := config)
    (fun name r hr => Growth.record?_without hg hc hc' hs hs' hrealizes hrealizes' hr)
    Record.built config.maxDepth hr
  rw [encodeAs_bytes hrealizes' hencode] at hdecode ⊢
  rw [decode, decodeWithin_eq hrealizes' (Nat.le_refl _)] at hdecode
  rw [decode, decodeWithin_eq hrealizes (Nat.le_refl _), hsame]
  exact Schema.readWithin_mirrors hrealizes'.ids_nodup hconforms hwithin hskip rest w rest' hdecode

/-! ## A note that grows -/

namespace Growth

/-- A struct with a size gets one more field. -/
def ofNote (kind : StructKind) (field : Field) : Growth :=
  ⟨kind, "Note", field, [⟨"size", some 1, .i32, .default, none, none⟩], [], [], [], [], []⟩

/-- A note gets a list of marks. -/
def marked : Growth := ofNote .struct ⟨"marks", some 2, .list .i32, .default, none, none⟩

def markedValue : StructValue := ⟨"Note", [("marks", .list [.i32 2]), ("size", .i32 1)]⟩

def markedBytes : Bytes :=
  [0x08, 0, 1, 0, 0, 0, 1, 0x0f, 0, 2, 0x08, 0, 0, 0, 1, 0, 0, 0, 2, 0]

theorem marked_proper : marked.Proper := by
  refine ⟨by decide, .refl _, .refl _, ?_⟩
  intro st hst
  cases hst

end Growth

theorem Machine.decode_old_marked : Growth.marked.Proper ∧
    ∃ c c', Growth.marked.old.compile = .ok c ∧ Growth.marked.new.compile = .ok c' ∧
      Growth.markedValue.toValue.Within { maxDepth := 2 } ∧
      (encodeAs c' {} "Note" Growth.markedValue).outcome = .ok () ∧
      (encodeAs c' {} "Note" Growth.markedValue).bytes = Growth.markedBytes ∧
      decode c' { maxDepth := 2 } "Note" Growth.markedBytes = .ok Growth.markedValue [] ∧
      decode c { maxDepth := 2 } "Note" Growth.markedBytes =
        .ok ⟨"Note", [("size", .i32 1)]⟩ [] := by
  have hwithin : Growth.markedValue.toValue.Within { maxDepth := 2 } := by
    simp only [Growth.markedValue, StructValue.toValue, Value.Within, Value.FieldsWithin,
      Value.ItemsWithin]
    decide
  obtain ⟨s', hs', h⟩ := decode_old Growth.marked_proper rfl rfl
  have hskip : s'.Skippable Growth.marked.omission { maxDepth := 2 } (.struct "Note")
      Growth.markedValue.toValue := by
    cases hs'
    unfold Schema.Skippable
    decide
  have hcarrier := Growth.carrier_oldStruct Growth.marked
  obtain ⟨-, hdecode⟩ :=
    h _ hcarrier {} { maxDepth := 2 } Growth.markedValue Growth.markedValue [] []
    hwithin hskip rfl rfl
  exact ⟨Growth.marked_proper, _, _, rfl, rfl, hwithin, rfl, rfl, rfl, hdecode⟩

namespace Growth

/-- The new document encodes an instance of the struct within the limits and decodes it again; on
the same bytes and under the same limits the old one ends as told. -/
def Ends (g : Growth) (config : WireConfig) (v w : StructValue) (bytes : Bytes)
    (ending : EStateM.Result Fault Bytes StructValue) : Prop :=
  ∃ c c', g.old.compile = .ok c ∧ g.new.compile = .ok c' ∧ v.toValue.Within config ∧
    (Machine.encodeAs c' config g.struct v).outcome = .ok () ∧
    (Machine.encodeAs c' config g.struct v).bytes = bytes ∧
    Machine.decode c' config g.struct bytes = .ok w [] ∧
    Machine.decode c config g.struct bytes = ending

/-- A note gets a second field of the name that it has already. -/
def doubled : Growth := ofNote .struct ⟨"size", some 2, .i32, .default, some (.int 7), none⟩

/-- Of what was a note or nothing, there is another alternative. -/
def joined : Growth := ofNote .union ⟨"mark", some 2, .i32, .default, none, none⟩

/-- The type of the new field takes the place of the one that another field named. -/
def captured : Growth :=
  let struct (name : String) : Statement :=
    .structLike .struct ⟨name, [⟨"size", some 1, .i32, .default, none, none⟩]⟩
  ⟨.struct, "Note", ⟨"more", some 2, .identifier "lib.Sized", .default, none, none⟩,
    [⟨"inner", some 1, .identifier "lib.Sized", .default, none, none⟩], [],
    [struct "Sized"], [], [struct "Sized", struct "lib.Sized"], []⟩

/-- Where an old reader falls behind: a list is passed over level by level though decoding counts
structs only; a second field of one name takes its default; of a union nothing else is left; and
the name of a new type catches an old reference. -/
theorem old_falls_behind :
    marked.Ends { maxDepth := 1 } markedValue markedValue markedBytes
      (.error (.protocol .skipDepth) [0, 0, 0, 2, 0]) ∧
    doubled.Ends {} ⟨"Note", [("size", .i32 5)]⟩ ⟨"Note", [("size", .i32 7)]⟩
      [0x08, 0, 1, 0, 0, 0, 5, 0x08, 0, 2, 0, 0, 0, 5, 0] (.ok ⟨"Note", [("size", .i32 5)]⟩ []) ∧
    joined.Ends {} ⟨"Note", [("mark", .i32 5)]⟩ ⟨"Note", [("mark", .i32 5)]⟩
      [0x08, 0, 2, 0, 0, 0, 5, 0] (.error (.protocol (.emptyUnion "Note")) []) ∧
    captured.Ends {} ⟨"Note", [("inner", .struct "lib.Sized" [("size", .i32 5)])]⟩
      ⟨"Note", [("inner", .struct "lib.Sized" [("size", .i32 5)])]⟩
      [0x0c, 0, 1, 0x08, 0, 1, 0, 0, 0, 5, 0, 0]
      (.ok ⟨"Note", [("inner", .struct "Sized" [("size", .i32 5)])]⟩ []) := by
  refine ⟨⟨_, _, rfl, rfl, ?_, rfl, rfl, rfl, rfl⟩, ⟨_, _, rfl, rfl, ?_, rfl, rfl, rfl, rfl⟩,
    ⟨_, _, rfl, rfl, ?_, rfl, rfl, rfl, rfl⟩, ⟨_, _, rfl, rfl, ?_, rfl, rfl, rfl, rfl⟩⟩
  all_goals
    simp only [markedValue, StructValue.toValue, Value.Within, Value.FieldsWithin,
      Value.ItemsWithin]
    decide

end Growth

end Thrift
