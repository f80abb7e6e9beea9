-- Methods and inheritance. The table of a service holds one method for each name that is declared
-- along its line, in the order in which the names come up from the root on, and each method is the
-- nearest one of its name. In a compiled document the structs of the methods have codecs with the
-- fields that are declared.
import Mathlib.Data.List.Induction
import Thrift.Proofs.Lineage

namespace Thrift

variable {t : SymbolTable} {s : Service} {f : Function} {m : Method} {line : List Service}

namespace Service

/-! ## Tables of methods -/

/-- Methods put into a table one after the other. -/
def tableOf (ms : List Method) : List Method := ms.foldl (fun table m => addMethod m table) []

theorem tableOf_concat (ms : List Method) (m : Method) :
    tableOf (ms ++ [m]) = addMethod m (tableOf ms) := by
  unfold tableOf
  rw [List.foldl_append]
  rfl

/-- A method of a new name comes last, and any other stands where the earlier one stood. -/
theorem names_addMethod (m : Method) (ms : List Method) :
    (addMethod m ms).map (·.name) = if m.name ∈ ms.map (·.name) then ms.map (·.name)
      else ms.map (·.name) ++ [m.name] := by
  induction ms with
  | nil => rfl
  | cons n ns ih =>
    rw [addMethod]
    split
    · rename_i hname
      simp [hname]
    · rename_i hname
      have hmem : m.name ∈ (n :: ns).map (·.name) ↔ m.name ∈ ns.map (·.name) := by
        rw [List.map_cons, List.mem_cons]
        exact or_iff_right (Ne.symm hname)
      rw [List.map_cons, ih]
      simp only [hmem]
      split
      · rfl
      · rfl

theorem find?_addMethod (m : Method) (ms : List Method) (name : String) :
    (addMethod m ms).find? (·.name == name) =
      if m.name = name then some m else ms.find? (·.name == name) := by
  induction ms with
  | nil =>
    by_cases hm : m.name = name
    · simp [addMethod, hm]
    · simp [addMethod, hm]
  | cons n ns ih =>
    rw [addMethod]
    split
    · rename_i hname
      by_cases hm : m.name = name
      · simp [hm]
      · simp [hm, hname]
    · rename_i hname
      by_cases hn : n.name = name
      · have hm : m.name ≠ name := fun hm => hname (hn.trans hm.symm)
        simp [hn, hm]
      · rw [List.find?_cons_of_neg (by simpa using hn), ih,
          List.find?_cons_of_neg (by simpa using hn)]

theorem eraseDups_concat (names : List String) (name : String) :
    (names ++ [name]).eraseDups =
      if name ∈ names then names.eraseDups else names.eraseDups ++ [name] := by
  rw [List.eraseDups_append, List.cons_removeAll]
  by_cases hmem : name ∈ names
  · simp [hmem]
  · simp [hmem, List.eraseDups_cons]

/-- The names of a table are the names of its methods, each where it came up first. -/
theorem names_tableOf (ms : List Method) :
    (tableOf ms).map (·.name) = (ms.map (·.name)).eraseDups := by
  induction ms using List.reverseRecOn with
  | nil => rfl
  | append_singleton ms m ih =>
    have hconcat : (ms ++ [m]).map (·.name) = ms.map (·.name) ++ [m.name] := List.map_append
    rw [tableOf_concat, names_addMethod, ih, hconcat, eraseDups_concat]
    simp only [List.mem_eraseDups]

theorem names_tableOf_nodup (ms : List Method) : ((tableOf ms).map (·.name)).Nodup := by
  induction ms using List.reverseRecOn with
  | nil => exact List.nodup_nil
  | append_singleton ms m ih =>
    rw [tableOf_concat, names_addMethod]
    split
    · exact ih
    · rename_i hnew
      exact List.nodup_append_comm.mp (List.nodup_cons.mpr ⟨hnew, ih⟩)

/-- The last method of a name is the one in the table. -/
theorem find?_tableOf (ms : List Method) (name : String) :
    (tableOf ms).find? (·.name == name) = ms.reverse.find? (·.name == name) := by
  induction ms using List.reverseRecOn with
  | nil => rfl
  | append_singleton ms m ih =>
    rw [tableOf_concat, find?_addMethod, ih, List.reverse_append]
    by_cases hm : m.name = name
    · simp [hm]
    · simp [hm]

/-! ## Declarations along a line -/

/-- The functions that the services of a line declare, each with its service. -/
def declarations (line : List Service) : List (Service × Function) :=
  line.flatMap fun s => s.functions.map (s, ·)

/-- The declaration of a name that is nearest to the end of a line. No service behind it declares
the name, and its own service does not do so again. -/
structure Nearest (line : List Service) (name : String) (s : Service) (f : Function) : Prop where
  last_service : ∃ before after, line = before ++ s :: after ∧
    ∀ later ∈ after, ∀ g ∈ later.functions, g.name ≠ name
  last_function : s.functions.reverse.find? (·.name == name) = some f

theorem nearest_of_find? {name : String}
    (h : (declarations line).reverse.find? (·.2.name == name) = some (s, f)) :
    Nearest line name s f := by
  rw [declarations, List.reverse_flatMap, List.find?_flatMap] at h
  obtain ⟨after, s', before, hline, hs, hafter⟩ := List.findSome?_eq_some_iff.mp h
  have hfind : ∀ s' : Service, ((List.reverse ∘ fun s : Service => s.functions.map (s, ·)) s').find?
      (·.2.name == name) = (s'.functions.reverse.find? (·.name == name)).map (s', ·) := by
    intro s'
    rw [Function.comp_apply, ← List.map_reverse, List.find?_map]
    rfl
  rw [hfind, Option.map_eq_some_iff] at hs
  obtain ⟨f', hf, heq⟩ := hs
  cases heq
  refine ⟨⟨before.reverse, after.reverse, ?_, fun later hlater g hg hname => ?_⟩, hf⟩
  · have hreverse := congrArg List.reverse hline
    simpa using hreverse
  · have hnone := hafter later (List.mem_reverse.mp hlater)
    rw [hfind, Option.map_eq_none_iff, List.find?_eq_none] at hnone
    exact hnone g (List.mem_reverse.mpr hg) (by simpa using hname)

/-- A table of methods is made of the declarations along the line, in order. -/
theorem foldlM_addMethods (t : SymbolTable) (line : List Service) (ms : List Method) :
    line.foldlM (addMethods t) ms = (declarations line).foldlM
      (fun ms d => do return addMethod (← methodOf t d.1 d.2) ms) ms := by
  induction line generalizing ms with
  | nil => rfl
  | cons s line ih =>
    have hcons : declarations (s :: line) = s.functions.map (s, ·) ++ declarations line := rfl
    rw [hcons, List.foldlM_cons, List.foldlM_append, List.foldlM_map]
    exact bind_congr fun ms => ih ms

theorem name_of_methodOf (h : methodOf t s f = .ok m) : m.name = f.name := by
  obtain ⟨slots, -, h⟩ := Steps.except_bind_eq_ok_iff.mp h
  cases h
  rfl

/-- Each method of a table is the nearest declaration of its name. -/
theorem nearest_of_mem {ms : List Method}
    (h : (declarations line).mapM (fun d => methodOf t d.1 d.2) = .ok ms) (hm : m ∈ tableOf ms) :
    ∃ s f, Nearest line m.name s f ∧ methodOf t s f = .ok m := by
  have hmade := Steps.mapM_eq_ok_iff.mp h
  have hfound := find?_of_nodup (names_tableOf_nodup ms) hm
  rw [find?_tableOf] at hfound
  have hrel := Steps.find?_of_forall₂ (p := (·.2.name == m.name)) (q := (·.name == m.name))
    (fun _ _ hd => by rw [name_of_methodOf hd]) (List.forall₂_reverse_iff.mpr hmade)
  rw [hfound] at hrel
  generalize hdeclared : (declarations line).reverse.find? (·.2.name == m.name) = declared at hrel
  cases hrel with
  | @some d _ hd => exact ⟨d.1, d.2, nearest_of_find? hdeclared, hd⟩

/-- The methods that are made of declarations have their names. -/
theorem names_of_declarations {ms : List Method}
    (h : (declarations line).mapM (fun d => methodOf t d.1 d.2) = .ok ms) :
    ms.map (·.name) = line.flatMap fun s => s.functions.map (·.name) := by
  have hnames := Steps.map_eq_of_forall₂ (f := (·.2.name)) (g := (·.name))
    (Steps.mapM_eq_ok_iff.mp h) fun _ _ hd => (name_of_methodOf hd).symm
  rw [← hnames, declarations, List.map_flatMap]
  simp only [List.map_map, Function.comp_def]

/-- A service whose line ends has a table of the methods that are declared along the line. -/
theorem codec_of_lineage {ms : List Method}
    (hline : lineage t s.name (t.size + 1) s [] = .ok line)
    (h : (declarations line).mapM (fun d => methodOf t d.1 d.2) = .ok ms) :
    s.codec t = .ok ⟨s.name, s.parent, tableOf ms⟩ := by
  have hmethods : line.foldlM (addMethods t) [] = .ok (tableOf ms) := by
    rw [foldlM_addMethods]
    exact Steps.foldlM_put_eq_ok_iff.mpr ⟨ms, h, rfl⟩
  unfold codec
  rw [hline]
  dsimp only [bind, Except.bind]
  rw [hmethods]
  rfl

theorem codec_of_lineage_error {cause : CodegenError}
    (hline : lineage t s.name (t.size + 1) s [] = .error cause) : s.codec t = .error cause := by
  unfold codec
  rw [hline]
  rfl

/-! ## Declared exceptions -/

end Service

/-- Every declared exception has an id, and its type stands for a struct, through typedefs or
not. -/
def Document.ThrowsStructs (d : Document) (t : SymbolTable) : Prop :=
  ∀ s ∈ d.services, ∀ f ∈ s.functions, ∀ e ∈ f.throws,
    e.id.isSome = true ∧ ∃ struct, e.type.HasForm t (.struct struct)

namespace Service

/-- A type that stands for a struct is opened in two steps, as there are no more typedefs behind
the first one. -/
theorem exceptionName_succeeds (hnames : t.names.Nodup) (hacyclic : t.Acyclic) {type : FieldType}
    {struct : String} (h : type.HasForm t (.struct struct)) {levels : Nat} (hlevels : 2 ≤ levels) :
    exceptionNameWithin t levels type = .ok struct := by
  obtain ⟨levels, rfl⟩ : ∃ l, levels = l + 2 := ⟨levels - 2, by omega⟩
  cases h with
  | struct hlookup => rw [exceptionNameWithin, SymbolTable.resolveType_structLike hlookup]
  | @«alias» name d _ hd h =>
    obtain ⟨u, hu, hfinal⟩ :=
      SymbolTable.underlying_succeeds hnames hacyclic (SymbolTable.mem_of_lookup hd)
    have htype : t.resolveType name = .ok (.typedef d u) := by
      rw [SymbolTable.resolveType, SymbolTable.resolve_of_typedef hd hu]
      rfl
    rw [exceptionNameWithin, htype]
    cases (FieldType.hasForm_underlying_iff hd hu).mpr (.alias hd h) with
    | struct hlookup =>
      dsimp only
      rw [exceptionNameWithin, SymbolTable.resolveType_structLike hlookup]
    | «alias» hnext _ =>
      have hnone := hfinal _ rfl
      rw [SymbolTable.typedef?_eq_some_iff.mpr hnext] at hnone
      cases hnone

theorem methodOf_succeeds {d : Document} (ht : SymbolTable.ofDocument d = .ok t)
    (hthrows : d.ThrowsStructs t) (hs : s ∈ d.services) (hf : f ∈ s.functions) :
    ∃ m, methodOf t s f = .ok m := by
  obtain ⟨-, hnames, hacyclic⟩ := SymbolTable.ofDocuments_iff_acyclic.mp ht
  have hslots : ∀ e ∈ f.throws,
      ∃ slot, exceptionSlot t (resultName s.name f.name) e = .ok slot := by
    intro e he
    obtain ⟨hid, struct, hform⟩ := hthrows s hs f hf e he
    obtain ⟨id, hid⟩ := Option.isSome_iff_exists.mp hid
    have hlevels : 2 ≤ maxTypeDepth + 1 := by decide
    have hname := exceptionName_succeeds hnames hacyclic hform hlevels
    unfold exceptionSlot
    rw [hid, hname]
    exact ⟨_, rfl⟩
  obtain ⟨slots, hslots⟩ := Steps.mapM_succeeds_iff.mpr hslots
  unfold methodOf
  rw [hslots]
  exact ⟨_, rfl⟩

/-- The declarations along a line of services of the document give methods. -/
theorem declarations_succeed {d : Document} (ht : SymbolTable.ofDocument d = .ok t)
    (hthrows : d.ThrowsStructs t) (hline : ∀ s ∈ line, s ∈ d.services) :
    ∃ ms, (declarations line).mapM (fun d => methodOf t d.1 d.2) = .ok ms := by
  refine Steps.mapM_succeeds_iff.mpr fun x hx => ?_
  obtain ⟨s, hs, hx⟩ := List.mem_flatMap.mp hx
  obtain ⟨f, hf, rfl⟩ := List.mem_map.mp hx
  exact methodOf_succeeds ht hthrows (hline s hs) hf

end Service

/-! ## Codecs of arguments and results -/

/-- The fields of a result: the value that is returned, then the declared exceptions. None is
required and none has a default. -/
structure ResultFields (f : Function) (fields : List FieldLayout) : Prop where
  declared : ∃ success exceptions, fields = success :: exceptions ∧
    (success.name = Service.successField ∧ success.id = 0 ∧ success.type = f.returnType) ∧
    List.Forall₂ (fun (e : Field) (l : FieldLayout) =>
      l.name = e.name ∧ e.id = some l.id ∧ l.type = e.type) f.throws exceptions
  optional : ∀ l ∈ fields, l.requiredness = .optional ∧ l.default = none

/-- The place in a result for a declared exception. -/
structure SlotFor (t : SymbolTable) (e : Field) (slot : ExceptionSlot) : Prop where
  field_eq : slot.field = e.name
  id_eq : e.id = some slot.id
  exception : e.type.HasForm t (.struct slot.exception)

/-- A method is what its function declares, and the codecs for its arguments and its result are
there with the declared fields. -/
structure Compiled.Carries (c : Compiled) (t : SymbolTable) (f : Function) (m : Method) :
    Prop where
  name_eq : m.name = f.name
  oneway_eq : m.oneway = f.oneway
  returnType_eq : m.returnType = f.returnType
  slots : List.Forall₂ (SlotFor t) f.throws m.exceptions
  arguments : ∃ codec, c.struct? m.argsStruct = some codec ∧
    List.Forall₂ (DeclaredBy t m.argsStruct) f.fields codec.fields
  oneway : m.oneway = true → m.resultStruct = none
  result : m.oneway = false → ∃ struct codec, m.resultStruct = some struct ∧
    c.struct? struct = some codec ∧ ResultFields f codec.fields

/-- Every struct that is sent has its codec under its name, with the fields that it declares. -/
theorem Document.codec_of_carrier {d : Document} {c : Compiled} {t : SymbolTable}
    (hc : d.compile = .ok c) (ht : SymbolTable.ofDocument d = .ok t)
    {carrier : StructKind × StructLike} (hcarrier : carrier ∈ d.carriers) :
    ∃ codec, c.struct? carrier.2.name = some codec ∧
      List.Forall₂ (DeclaredBy t carrier.2.name) carrier.2.fields codec.fields := by
  obtain ⟨t', ht', hof⟩ := Document.compile_eq_ok_iff.mp hc
  cases ht.symm.trans ht'
  obtain ⟨hstructs, hnames, -⟩ := Compiled.ofSymbols_eq_ok_iff.mp hof
  obtain ⟨codec, hcodec, hmade⟩ :=
    Steps.forall₂_mem_left (Steps.mapM_eq_ok_iff.mp hstructs) hcarrier
  unfold StructCodec.ofCarrier StructCodec.ofDefinition at hmade
  obtain ⟨fields, hfields, hmade⟩ := Steps.except_bind_eq_ok_iff.mp hmade
  obtain ⟨decode, -, hmade⟩ := Steps.except_bind_eq_ok_iff.mp hmade
  obtain ⟨encode, -, hmade⟩ := Steps.except_bind_eq_ok_iff.mp hmade
  have hfound := find?_of_nodup hnames hcodec
  cases hmade
  exact ⟨_, hfound, declaredBy_of_ofFields hfields⟩

namespace Service

theorem resultFields_of_declared {struct : String} {fields : List FieldLayout}
    (h : List.Forall₂ (DeclaredBy t struct) (resultStruct s.name f).fields fields) :
    ResultFields f fields := by
  cases h with
  | @cons _ success _ exceptions hsuccess hthrows =>
    have hexceptions := List.forall₂_map_left_iff.mp hthrows
    refine ⟨⟨success, exceptions, rfl, ⟨hsuccess.name_eq, ?_, hsuccess.type_eq⟩, ?_⟩, ?_⟩
    · exact (Option.some.inj hsuccess.id_eq).symm
    · exact hexceptions.imp fun e l h => ⟨h.name_eq, h.id_eq, h.type_eq⟩
    · refine List.forall_mem_cons.mpr ⟨⟨hsuccess.requiredness_eq, ?_⟩, fun l hl => ?_⟩
      · exact (Except.ok.inj hsuccess.default_eq).symm
      · obtain ⟨e, -, h⟩ := Steps.forall₂_mem_right hexceptions hl
        exact ⟨h.requiredness_eq, (Except.ok.inj h.default_eq).symm⟩

theorem slotFor_of_exceptionSlot {struct : String} {e : Field} {slot : ExceptionSlot}
    (h : exceptionSlot t struct e = .ok slot) : SlotFor t e slot := by
  unfold exceptionSlot at h
  split at h
  · cases h
  · rename_i id hid
    obtain ⟨name, hname, h⟩ := Steps.except_bind_eq_ok_iff.mp h
    cases h
    exact ⟨rfl, hid, FieldType.hasForm_of_exceptionName hname⟩

/-- A method that a service of a compiled document declares has its codecs there. -/
theorem carries_of_methodOf {d : Document} {c : Compiled} (hc : d.compile = .ok c)
    (ht : SymbolTable.ofDocument d = .ok t) (hs : s ∈ d.services) (hf : f ∈ s.functions)
    (hm : methodOf t s f = .ok m) : c.Carries t f m := by
  obtain ⟨slots, hslots, hm⟩ := Steps.except_bind_eq_ok_iff.mp hm
  cases hm
  have hargs := carrier_mem hs hf (argsStruct_mem s.name f)
  have hexceptions := (Steps.mapM_eq_ok_iff.mp hslots).imp fun _ _ => slotFor_of_exceptionSlot
  refine ⟨rfl, rfl, rfl, hexceptions, Document.codec_of_carrier hc ht hargs, fun honeway => ?_,
    fun htwo => ?_⟩
  · exact if_pos honeway
  · have honeway : ¬ f.oneway = true := by simpa using htwo
    obtain ⟨codec, hcodec, hfields⟩ :=
      Document.codec_of_carrier hc ht (carrier_mem hs hf (resultStruct_mem s.name htwo))
    exact ⟨_, codec, if_neg honeway, hcodec, resultFields_of_declared hfields⟩

end Service

/-! ## Services of a document -/

/-- A service with the methods of its line. In a compiled document their codecs are there. -/
structure ServiceCodec.Inherits (codec : ServiceCodec) (d : Document) (t : SymbolTable)
    (line : List Service) : Prop where
  names_nodup : (codec.methods.map (·.name)).Nodup
  names_eq : codec.methods.map (·.name) =
    (line.flatMap fun s => s.functions.map (·.name)).eraseDups
  nearest : ∀ m ∈ codec.methods, ∃ s f, Service.Nearest line m.name s f ∧
    Service.methodOf t s f = .ok m ∧ ∀ c, d.compile = .ok c → c.Carries t f m

namespace Service

theorem Nearest.mem {name : String} (h : Nearest line name s f) :
    s ∈ line ∧ f ∈ s.functions := by
  obtain ⟨before, after, rfl, -⟩ := h.last_service
  exact ⟨List.mem_append_right _ List.mem_cons_self,
    List.mem_reverse.mp (List.mem_of_find?_eq_some h.last_function)⟩

/-- A service whose line ends inherits the methods of the line. -/
theorem codec_of_line {d : Document} (ht : SymbolTable.ofDocument d = .ok t)
    (hthrows : d.ThrowsStructs t) (hline : ∀ s ∈ line, s ∈ d.services)
    (hlineage : lineage t s.name (t.size + 1) s [] = .ok line) :
    ∃ codec, s.codec t = .ok codec ∧ codec.Inherits d t line := by
  obtain ⟨ms, hms⟩ := declarations_succeed ht hthrows hline
  refine ⟨_, codec_of_lineage hlineage hms, names_tableOf_nodup ms, ?_, fun m hm => ?_⟩
  · rw [← names_of_declarations hms]
    exact names_tableOf ms
  · obtain ⟨s', f', hnearest, hmethod⟩ := nearest_of_mem hms hm
    obtain ⟨hs', hf'⟩ := hnearest.mem
    exact ⟨s', f', hnearest, hmethod,
      fun c hc => carries_of_methodOf hc ht (hline s' hs') hf' hmethod⟩

/-- A service of a document, all of whose declared exceptions are structs with an id, has no table
of methods exactly when the way up comes back to a service, or comes to a name that is no
service's. Otherwise it has one, and inherits the methods of its line. -/
theorem codec_inherits {d : Document} (ht : SymbolTable.ofDocument d = .ok t)
    (hthrows : d.ThrowsStructs t) (hs : s ∈ d.services) :
    ((∃ cause, s.codec t = .error (.procedure cause)) ↔ s.ComesBack t) ∧
      ((∃ name near, s.codec t = .error (.resolve (.unknownIdentifier name near))) ↔
        s.LosesParent t) ∧
      (¬ s.ComesBack t → ¬ s.LosesParent t → ∃ line codec,
        s.Line t line ∧ s.codec t = .ok codec ∧ codec.Inherits d t line) := by
  have hdefined := (SymbolTable.service_mem_iff ht).mpr hs
  have hnames := SymbolTable.names_of_document ht
  rcases lineage_cases hnames s.name (.start hdefined) with
    ⟨line, hline, heq⟩ | ⟨hloses, name, heq⟩ | ⟨hback, through, heq⟩
  · rw [List.append_nil] at heq
    have hservices : ∀ s' ∈ line, s' ∈ d.services :=
      fun s' hs' => (SymbolTable.service_mem_iff ht).mp (hline.mem hdefined s' hs')
    obtain ⟨codec, hcodec, hinherits⟩ := codec_of_line ht hthrows hservices heq
    rw [hcodec]
    refine ⟨iff_of_false ?_ hline.not_comesBack, iff_of_false ?_ hline.not_losesParent,
      fun _ _ => ⟨line, codec, hline, rfl, hinherits⟩⟩
    · rintro ⟨cause, ⟨⟩⟩
    · rintro ⟨name, near, ⟨⟩⟩
  · rw [codec_of_lineage_error heq]
    refine ⟨iff_of_false ?_ hloses.not_comesBack, iff_of_true ⟨_, _, rfl⟩ hloses,
      fun _ hno => absurd hloses hno⟩
    rintro ⟨cause, ⟨⟩⟩
  · rw [codec_of_lineage_error heq]
    refine ⟨iff_of_true ⟨_, rfl⟩ hback, iff_of_false ?_ fun h => h.not_comesBack hback,
      fun hno => absurd hback hno⟩
    rintro ⟨name, near, ⟨⟩⟩

end Service

namespace Document

def station : Service := ⟨"Station", none,
  [⟨"ping", .void, [], [], false⟩, ⟨"version", .string, [], [], false⟩]⟩

/-- A service that extends another one by a qualified name, and declares one of its methods anew. -/
def depot : Service := ⟨"Depot", some "shared.Station",
  [⟨"version", .i32, [], [], false⟩,
    ⟨"load", .i64, [⟨"weight", some 1, .double, .default, none, none⟩],
      [⟨"full", some 3, .identifier "Refusal", .default, none, none⟩], false⟩,
    ⟨"ring", .void, [], [], true⟩]⟩

def full : StructLike := ⟨"Full", [⟨"limit", some 1, .i32, .default, none, none⟩]⟩

def refusal : Typedef := ⟨"Refusal", .identifier "Full"⟩

/-- Two services, with an exception that is named by a typedef. -/
def yard : Document := ⟨[
  .structLike .exception full,
  (.typedef refusal),
  .service station,
  .service depot]⟩

theorem yard_throwsStructs : yard.ThrowsStructs (.merged [yard]) := by
  have hthrows : ∀ s ∈ yard.services, ∀ f ∈ s.functions, ∀ e ∈ f.throws,
      e.id.isSome = true ∧ e.type = .identifier "Refusal" := by decide
  have hfull : (FieldType.identifier "Full").HasForm (.merged [yard]) (.struct "Full") :=
    .struct (d := full) rfl
  intro s hs f hf e he
  obtain ⟨hid, htype⟩ := hthrows s hs f hf e he
  refine ⟨hid, "Full", ?_⟩
  rw [htype]
  exact .alias (d := refusal) rfl hfull

def east : Service := ⟨"East", some "West", []⟩

def west : Service := ⟨"West", some "East", []⟩

def spur : Service := ⟨"Spur", some "Main", []⟩

/-- Two services that extend each other, and one whose parent is not there. -/
def siding : Document := ⟨[.service east, .service west, .service spur]⟩

end Document

namespace Service

open Document

/-- The methods of the depot, of which it inherits the first. -/
def yardMethods : List Method := [
  ⟨"ping", "Station", "StationPingArgs", some "StationPingResult", .void, false, []⟩,
  ⟨"version", "Depot", "DepotVersionArgs", some "DepotVersionResult", .i32, false, []⟩,
  ⟨"load", "Depot", "DepotLoadArgs", some "DepotLoadResult", .i64, false, [⟨"full", 3, "Full"⟩]⟩,
  ⟨"ring", "Depot", "DepotRingArgs", none, .void, true, []⟩]

theorem codec_inherits_yard :
    SymbolTable.ofDocument yard = .ok (.merged [yard]) ∧ yard.ThrowsStructs (.merged [yard]) ∧
    depot ∈ yard.services ∧
    (∃ line codec c, depot.Line (.merged [yard]) line ∧ yard.compile = .ok c ∧
      depot.codec (.merged [yard]) = .ok codec ∧ codec.Inherits yard (.merged [yard]) line ∧
      codec.methods = yardMethods) ∧
    SymbolTable.ofDocument siding = .ok (.merged [siding]) ∧
    east.ComesBack (.merged [siding]) ∧ spur.LosesParent (.merged [siding]) := by
  have hdepot : depot ∈ yard.services := List.mem_cons_of_mem _ List.mem_cons_self
  obtain ⟨hnoback, hnoloss, hinherits⟩ := codec_inherits rfl yard_throwsStructs hdepot
  obtain ⟨line, codec, hline, hcodec, hmethods⟩ := hinherits
    (fun h => by obtain ⟨cause, ⟨⟩⟩ := hnoback.mpr h)
    (fun h => by obtain ⟨name, near, ⟨⟩⟩ := hnoloss.mpr h)
  have htable : codec.methods = yardMethods := by
    cases hcodec
    rfl
  have hsiding : siding.ThrowsStructs (.merged [siding]) := by
    have hnone : ∀ s ∈ siding.services, s.functions = [] := by decide
    intro s hs f hf
    rw [hnone s hs] at hf
    cases hf
  have heast : east ∈ siding.services := List.mem_cons_self
  have hspur : spur ∈ siding.services :=
    List.mem_cons_of_mem _ (List.mem_cons_of_mem _ List.mem_cons_self)
  obtain ⟨hback, -, -⟩ := codec_inherits rfl hsiding heast
  obtain ⟨-, hloses, -⟩ := codec_inherits rfl hsiding hspur
  exact ⟨rfl, yard_throwsStructs, hdepot, ⟨line, codec, _, hline, rfl, hcodec, hmethods, htable⟩,
    rfl, hback.mp ⟨_, rfl⟩, hloses.mp ⟨_, _, rfl⟩⟩

end Service

end Thrift
