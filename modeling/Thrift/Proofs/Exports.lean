-- The names that a script exports. A script exports its enums, aliases and constants, a class for
-- each struct that is sent and a namespace for each service. The structs that are made for the
-- functions of services take names that no document spells out, and a document is refused when two
-- structs come to share one. The other definitions are not looked at.
import Mathlib.Data.List.Duplicate
import Thrift.Proofs.Assembly
import Thrift.Proofs.Blocks

namespace Thrift

/-! ## What a script exports -/

namespace Script

/-- Something that a script exports: the word for its kind, its name, and what follows the name. -/
structure Export where
  word : String
  name : String
  follow : String
deriving DecidableEq

/-- How the line starts that a script exports something with. -/
def Export.head (e : Export) : String := "export " ++ e.word ++ " " ++ e.name ++ e.follow

/-- The line is the first one of what is exported. -/
def Export.Opens (e : Export) (line : String) : Prop := ∃ more, line = e.head ++ more

def isExport (line : String) : Bool := "export ".toList.isPrefixOf line.toList

/-- The lines outside of all blocks that export something. -/
def exportLines (pieces : List Piece) : List String := (outermost 0 pieces).filter isExport

def classExport (name : String) : Export := ⟨"class", name, " \x7b"⟩

def namespaceExport (name : String) : Export := ⟨"namespace", name, " \x7b"⟩

end Script

/-- What is exported for a statement that has no codec. -/
def Statement.export? : Statement → Option Script.Export
  | enumeration d => some ⟨"enum", d.name, " \x7b"⟩
  | typedef d => some ⟨"type", d.name, " = "⟩
  | constant d => some ⟨"const", d.name, ": "⟩
  | _ => none

/-- What the script of a document exports, in its order. -/
def Document.exports (d : Document) (c : Compiled) : List Script.Export :=
  d.body.filterMap (·.export?) ++ (c.structs.map fun s => Script.classExport s.name) ++
    c.services.map fun s => Script.namespaceExport s.name

namespace Script

theorem isExport_head (e : Export) (more : String) : isExport (e.head ++ more) = true := by
  rw [isExport, List.isPrefixOf_iff_prefix, Export.head]
  simp only [String.toList_append, List.append_assoc]
  exact List.prefix_append _ _

theorem isExport_close : isExport "\x7d" = false := by decide

theorem exportLines_append {ps : List Piece} (h : Nested ps) (qs : List Piece) :
    exportLines (ps ++ qs) = exportLines ps ++ exportLines qs := by
  rw [exportLines, h.outermost_append, List.filter_append]
  rfl

theorem exportLines_flatMap {α : Type} {f : α → List Piece} {as : List α}
    (h : ∀ a ∈ as, Nested (f a)) :
    exportLines (as.flatMap f) = as.flatMap fun a => exportLines (f a) := by
  rw [exportLines, Nested.outermost_flatMap h, List.filter_flatMap]
  rfl

/-- A line that exports something, before a blank one. -/
theorem exportLines_line {e : Export} {text : String} (h : e.Opens text) :
    exportLines [.line text, .blank] = [text] := by
  obtain ⟨more, rfl⟩ := h
  exact List.filter_eq_self.mpr fun line hline => by
    cases List.mem_singleton.mp hline
    exact isExport_head e more

/-- A block that is exported, before a blank line. -/
theorem exportLines_braced {e : Export} {head : String} {body : List Piece}
    (hhead : head ++ " \x7b" = e.head) (h : Nested body) :
    exportLines (braced head body ++ [.blank]) = [e.head] := by
  have hopen := isExport_head e ""
  rw [String.append_empty] at hopen
  rw [exportLines_append (.braced head h), exportLines, h.outermost_braced, hhead,
    List.filter_cons_of_pos hopen, List.filter_cons_of_neg (by rw [isExport_close]; exact nofun)]
  rfl

theorem Export.opens_head (e : Export) : e.Opens e.head := ⟨"", String.append_empty.symm⟩

theorem opens_heads {α : Type} (f : α → Export) (as : List α) :
    List.Forall₂ Export.Opens (as.map f) (as.flatMap fun a => [(f a).head]) := by
  induction as with
  | nil => exact .nil
  | cons a as ih => exact .cons (Export.opens_head _) ih

/-- Each statement exports what it has to. -/
theorem exportLines_statementLines {t : SymbolTable} {st : Statement} {pieces : List Piece}
    (h : statementLines t st = .ok pieces) :
    List.Forall₂ Export.Opens st.export?.toList (exportLines pieces) := by
  cases st with
  | enumeration d =>
    cases h
    have hlines : exportLines (enumLines d ++ [.blank]) =
        [Export.head ⟨"enum", d.name, " \x7b"⟩] := exportLines_braced rfl (.map _ _)
    exact hlines ▸ .cons (Export.opens_head _) .nil
  | typedef d =>
    cases h
    have hopens : Export.Opens ⟨"type", d.name, " = "⟩
        ("export type " ++ d.name ++ " = " ++ typeOf d.type ++ ";") :=
      ⟨_, String.append_assoc⟩
    exact exportLines_line hopens ▸ .cons hopens .nil
  | constant d =>
    obtain ⟨_, hline, h⟩ := Steps.except_bind_eq_ok_iff.mp h
    obtain ⟨value, -, hline⟩ := Steps.except_bind_eq_ok_iff.mp hline
    cases hline
    cases h
    have hopens : Export.Opens ⟨"const", d.name, ": "⟩ ("export const " ++ d.name ++ ": " ++
        typeOf d.type ++ " = " ++ literal value ++ ";") := by
      have hhead : Export.head ⟨"const", d.name, ": "⟩ = "export const " ++ d.name ++ ": " := rfl
      refine ⟨typeOf d.type ++ " = " ++ literal value ++ ";", ?_⟩
      rw [hhead]
      simp only [String.append_assoc]
    exact exportLines_line hopens ▸ .cons hopens .nil
  | _ =>
    cases h
    exact .nil

/-- The statements export what they have to. -/
theorem exportLines_statements {t : SymbolTable} {body : List Statement}
    {statements : List (List Piece)} (h : body.mapM (statementLines t) = .ok statements) :
    List.Forall₂ Export.Opens (body.filterMap (·.export?)) (exportLines statements.flatten) := by
  have hall := Steps.mapM_eq_ok_iff.mp h
  clear h
  induction hall with
  | nil => exact .nil
  | @cons st pieces body statements hst _ ih =>
    have hexports : (st :: body).filterMap (·.export?) =
        st.export?.toList ++ body.filterMap (·.export?) := by
      rw [List.filterMap_cons]
      cases st.export? <;> rfl
    rw [List.flatten_cons, exportLines_append (nested_statementLines hst), hexports]
    exact List.rel_append (exportLines_statementLines hst) ih

/-- The lines that export something are those of the exports of the document, in their order. -/
theorem exportLines_bodyLines {t : SymbolTable} {d : Document} {c : Compiled}
    {body : List Piece} (h : bodyLines t d c = .ok body) :
    List.Forall₂ Export.Opens (d.exports c) (exportLines body) := by
  obtain ⟨statements, hstatements, h⟩ := Steps.except_bind_eq_ok_iff.mp h
  cases h
  have hclass : ∀ s : StructCodec,
      exportLines (classLines t s ++ [.blank]) = [(classExport s.name).head] := by
    intro s
    obtain ⟨body, hbody, heq⟩ := nested_classBody t s
    exact heq ▸ exportLines_braced rfl hbody
  have hservice : ∀ s : ServiceCodec,
      exportLines (serviceLines c s ++ [.blank]) = [(namespaceExport s.name).head] := by
    intro s
    obtain ⟨body, hbody, heq⟩ := nested_serviceBody c s
    exact heq ▸ exportLines_braced rfl hbody
  have hnested := nested_statements hstatements
  rw [exportLines_append (hnested.append (.flatMap fun s _ => nested_classLines t s)),
    exportLines_append hnested, exportLines_flatMap fun s _ => nested_classLines t s,
    exportLines_flatMap fun s _ => nested_serviceLines c s]
  simp only [hclass, hservice]
  exact List.rel_append (List.rel_append (exportLines_statements hstatements) (opens_heads _ _))
    (opens_heads _ _)

end Script

/-! ## Names -/

/-- The names of the structs that are made for the functions of services. -/
def Document.synthesized (d : Document) : List String :=
  (d.services.flatMap Service.carriers).map (·.2.name)

/-- A name of a struct that is made for a function is taken by another one or by a struct of the
document. -/
def Document.Collides (d : Document) : Prop :=
  ¬ d.synthesized.Nodup ∨ ∃ x ∈ d.structLikes, x.2.name ∈ d.synthesized

/-- The names that the statements of a document define. -/
def Document.defined (d : Document) : List String := d.body.filterMap (·.name?)

theorem Document.names_carriers (d : Document) :
    d.carriers.map (·.2.name) = d.structLikes.map (·.2.name) ++ d.synthesized :=
  List.map_append

theorem Document.Collides.not_nodup {d : Document} (h : d.Collides) :
    ¬ (d.carriers.map (·.2.name)).Nodup := by
  intro hnodup
  rw [d.names_carriers, List.nodup_append] at hnodup
  obtain ⟨-, hsynthesized, hapart⟩ := hnodup
  rcases h with h | ⟨x, hx, htaken⟩
  · exact h hsynthesized
  · exact hapart _ (List.mem_map_of_mem hx) _ htaken rfl

theorem StructCodec.name_of_ofCarrier {t : SymbolTable} {carrier : StructKind × StructLike}
    {codec : StructCodec} (h : ofCarrier t carrier = .ok codec) :
    codec.name = carrier.2.name := by
  obtain ⟨ls, -, h⟩ := Steps.except_bind_eq_ok_iff.mp h
  obtain ⟨dec, -, h⟩ := Steps.except_bind_eq_ok_iff.mp h
  obtain ⟨enc, -, h⟩ := Steps.except_bind_eq_ok_iff.mp h
  cases h
  rfl

theorem StructCodec.names_of_carriers {t : SymbolTable} {carriers : List (StructKind × StructLike)}
    {codecs : List StructCodec} (h : carriers.mapM (ofCarrier t) = .ok codecs) :
    codecs.map (·.name) = carriers.map (·.2.name) :=
  (Steps.map_eq_of_forall₂ (Steps.mapM_eq_ok_iff.mp h) fun _ _ hcodec =>
    (name_of_ofCarrier hcodec).symm).symm

namespace Document

theorem names_definitions (d : Document) :
    (d.body.filterMap (·.definition?)).map (·.name) = d.defined := by
  rw [defined, List.map_filterMap]
  congr 1
  funext st
  cases st <;> rfl

/-- A document defines a name once. -/
theorem nodup_defined {d : Document} {t : SymbolTable} (ht : SymbolTable.ofDocument d = .ok t) :
    d.defined.Nodup := by
  rw [← d.names_definitions, ← SymbolTable.definitions_of_document ht]
  exact SymbolTable.names_of_document ht

/-- What a document defines is exported, is a struct or is a service. -/
theorem perm_defined (d : Document) :
    List.Perm ((d.body.filterMap (·.export?)).map (·.name) ++ d.structLikes.map (·.2.name) ++
      d.services.map (·.name)) d.defined := by
  obtain ⟨body⟩ := d
  induction body with
  | nil => exact .nil
  | cons st body ih =>
    cases st with
    -- A struct or a service stands behind what is exported before it.
    | structLike kind s =>
      rw [List.append_assoc]
      exact List.perm_middle.trans (.cons s.name (by rwa [List.append_assoc] at ih))
    | service s => exact List.perm_middle.trans (.cons s.name ih)
    | namespaceLine | includeLine => exact ih
    | constant d => exact .cons d.name ih
    | enumeration d => exact .cons d.name ih
    | typedef d => exact .cons d.name ih

theorem nodup_structLikes {d : Document} {t : SymbolTable}
    (ht : SymbolTable.ofDocument d = .ok t) : (d.structLikes.map (·.2.name)).Nodup := by
  have hnames := d.perm_defined.nodup_iff.mpr (nodup_defined ht)
  exact (List.nodup_append.mp (List.nodup_append.mp hnames).1).2.1

theorem nodup_carriers {d : Document} {c : Compiled} (hc : d.compile = .ok c) :
    (d.carriers.map (·.2.name)).Nodup := by
  obtain ⟨t, -, h⟩ := compile_eq_ok_iff.mp hc
  rw [← StructCodec.names_of_carriers (Compiled.ofSymbols_eq_ok_iff.mp h).1]
  exact Compiled.names_of_compile hc

end Document

/-! ## Refusals -/

namespace Compiled

/-- Codecs are not added when a name comes twice. -/
theorem addStructs_eq_error {structs new : List StructCodec} {cause : CodegenError}
    (h : addStructs structs new = .error cause) :
    ∃ s ∈ new, cause = .resolve (.duplicateDefinition s.name) ∧
      List.Duplicate s.name ((structs ++ new).map (·.name)) := by
  induction new generalizing structs with
  | nil => cases h
  | cons s new ih =>
    rw [addStructs] at h
    split at h
    · rename_i htaken
      cases h
      obtain ⟨s', hs', hname⟩ := List.any_eq_true.mp htaken
      refine ⟨s, List.mem_cons_self, rfl, ?_⟩
      have hearlier : List.Sublist [s.name] (structs.map (·.name)) :=
        List.singleton_sublist.mpr (List.mem_map.mpr ⟨s', hs', beq_iff_eq.mp hname⟩)
      have hlater : List.Sublist [s.name] ((s :: new).map (·.name)) :=
        List.singleton_sublist.mpr List.mem_cons_self
      rw [List.duplicate_iff_sublist, List.map_append]
      exact hearlier.append hlater
    · obtain ⟨s', hs', hcause, hduplicate⟩ := ih h
      rw [List.append_assoc] at hduplicate
      exact ⟨s', List.mem_cons_of_mem s hs', hcause, hduplicate⟩

/-- What keeps the codecs of some structs from being added: one of them cannot be made, or has a
name that came before. -/
def Spoils (t : SymbolTable) (taken : List String) (carriers : List (StructKind × StructLike))
    (cause : CodegenError) : Prop :=
  (∃ x ∈ carriers, StructCodec.ofCarrier t x = .error cause) ∨
    ∃ x ∈ carriers, cause = .resolve (.duplicateDefinition x.2.name) ∧
      List.Duplicate x.2.name (taken ++ carriers.map (·.2.name))

theorem foldlM_addStructs_eq_error {α : Type} {t : SymbolTable}
    {carry : α → List (StructKind × StructLike)} {as : List α} {structs : List StructCodec}
    {cause : CodegenError} (hs : (structs.map (·.name)).Nodup)
    (h : as.foldlM (fun structs a => do
      addStructs structs (← (carry a).mapM (StructCodec.ofCarrier t))) structs = .error cause) :
    Spoils t (structs.map (·.name)) (as.flatMap carry) cause := by
  induction as generalizing structs with
  | nil => cases h
  | cons a as ih =>
    rw [List.foldlM_cons] at h
    rw [List.flatMap_cons]
    rcases Steps.except_bind_eq_error_iff.mp h with h | ⟨mid, hmid, h⟩
    · rcases Steps.except_bind_eq_error_iff.mp h with h | ⟨codecs, hcodecs, h⟩
      · obtain ⟨x, hx, hfail⟩ := Steps.mapM_eq_error h
        exact .inl ⟨x, List.mem_append_left _ hx, hfail⟩
      · obtain ⟨s, hs', hcause, hduplicate⟩ := addStructs_eq_error h
        obtain ⟨x, hx, hmade⟩ := Steps.forall₂_mem_right (Steps.mapM_eq_ok_iff.mp hcodecs) hs'
        rw [StructCodec.name_of_ofCarrier hmade] at hcause hduplicate
        refine .inr ⟨x, List.mem_append_left _ hx, hcause, hduplicate.mono_sublist ?_⟩
        rw [List.map_append, List.map_append, StructCodec.names_of_carriers hcodecs]
        exact (List.Sublist.refl _).append (List.sublist_append_left _ _)
    · obtain ⟨codecs, hcodecs, hmid⟩ := Steps.except_bind_eq_ok_iff.mp hmid
      obtain ⟨hnames, rfl⟩ := (addStructs_eq_ok_iff hs).mp hmid
      -- What was added counts as taken for the rest.
      have hrest := ih hnames h
      rw [List.map_append, StructCodec.names_of_carriers hcodecs] at hrest
      rcases hrest with ⟨x, hx, hfail⟩ | ⟨x, hx, hcause, hduplicate⟩
      · exact .inl ⟨x, List.mem_append_right _ hx, hfail⟩
      · rw [List.append_assoc, ← List.map_append] at hduplicate
        exact .inr ⟨x, List.mem_append_right _ hx, hcause, hduplicate⟩

/-- The codecs of a document are not made when one of a struct cannot be made, when a struct of a
function has a name that came before, or else when a service has no table of methods. -/
theorem ofSymbols_eq_error {t : SymbolTable} {d : Document} {cause : CodegenError}
    (hnames : (d.structLikes.map (·.2.name)).Nodup) (h : ofSymbols t d = .error cause) :
    ((∃ x ∈ d.carriers, StructCodec.ofCarrier t x = .error cause) ∨
      ∃ name ∈ d.synthesized, cause = .resolve (.duplicateDefinition name) ∧
        List.Duplicate name (d.carriers.map (·.2.name))) ∨
      (d.carriers.map (·.2.name)).Nodup ∧ ∃ s ∈ d.services, s.codec t = .error cause := by
  have hempty : (([] : List StructCodec).map (·.name)).Nodup := List.nodup_nil
  unfold ofSymbols at h
  rw [addDefinition_eq, addService_eq] at h
  rcases Steps.except_bind_eq_error_iff.mp h with h | ⟨defined, hdefined, h⟩
  · have hspoils := @foldlM_addStructs_eq_error _ t (fun x => [x]) _ _ _ hempty h
    rw [List.flatMap_singleton'] at hspoils
    rcases hspoils with ⟨x, hx, hfail⟩ | ⟨x, -, -, hduplicate⟩
    · exact .inl (.inl ⟨x, List.mem_append_left _ hx, hfail⟩)
    · exact absurd hnames hduplicate.not_nodup
  · obtain ⟨codecs, hcodecs, hdistinct, rfl⟩ :=
      (@foldlM_addStructs_eq_ok_iff _ t (fun x => [x]) _ _ _ hempty).mp hdefined
    rw [List.flatMap_singleton'] at hcodecs
    rcases Steps.except_bind_eq_error_iff.mp h with h | ⟨all, hall, h⟩
    · have hspoils := foldlM_addStructs_eq_error hdistinct h
      rw [List.nil_append, StructCodec.names_of_carriers hcodecs] at hspoils
      rcases hspoils with ⟨x, hx, hfail⟩ | ⟨x, hx, hcause, hduplicate⟩
      · exact .inl (.inl ⟨x, List.mem_append_right _ hx, hfail⟩)
      · rw [d.names_carriers]
        exact .inl (.inr ⟨x.2.name, List.mem_map_of_mem hx, hcause, hduplicate⟩)
    · obtain ⟨more, hmore, hdistinct', rfl⟩ := (foldlM_addStructs_eq_ok_iff hdistinct).mp hall
      rw [List.nil_append, List.map_append, StructCodec.names_of_carriers hcodecs,
        StructCodec.names_of_carriers hmore] at hdistinct'
      rcases Steps.except_bind_eq_error_iff.mp h with h | ⟨services, -, h⟩
      · rw [d.names_carriers]
        exact .inr ⟨hdistinct', Steps.mapM_eq_error h⟩
      · cases h

end Compiled

namespace Document

/-- The document is refused with this error, either for its table, or for a struct that has no
codec, or for a struct of a function with a name that another struct has as well. -/
def RefusedFor (d : Document) (cause : CodegenError) : Prop :=
  (∃ e, SymbolTable.ofDocument d = .error e ∧ cause = .resolve e) ∨
    ∃ t, SymbolTable.ofDocument d = .ok t ∧
      ((∃ x ∈ d.carriers, StructCodec.ofCarrier t x = .error cause) ∨
        ∃ name ∈ d.synthesized, cause = .resolve (.duplicateDefinition name) ∧
          List.Duplicate name (d.carriers.map (·.2.name)))

/-- A collision of names is refused. -/
theorem Collides.refused {d : Document} (h : d.Collides) :
    ∃ cause, d.compile = .error cause ∧ d.RefusedFor cause := by
  rcases hcompile : d.compile with cause | c
  · refine ⟨cause, rfl, ?_⟩
    unfold compile at hcompile
    rcases ht : SymbolTable.ofDocument d with e | t
    · rw [ht] at hcompile
      cases hcompile
      exact .inl ⟨e, ht, rfl⟩
    · rw [ht] at hcompile
      refine .inr ⟨t, ht, ?_⟩
      rcases Compiled.ofSymbols_eq_error (nodup_structLikes ht) hcompile with hmade | hservice
      · exact hmade
      · exact absurd hservice.1 h.not_nodup
  · exact absurd (nodup_carriers hcompile) h.not_nodup

end Document

/-! ## Distinct exports -/

theorem ServiceCodec.names_of_services {t : SymbolTable} {services : List Service}
    {codecs : List ServiceCodec} (h : services.mapM (Service.codec t) = .ok codecs) :
    codecs.map (·.name) = services.map (·.name) := by
  refine (Steps.map_eq_of_forall₂ (Steps.mapM_eq_ok_iff.mp h) fun s codec hcodec => ?_).symm
  obtain ⟨line, -, hcodec⟩ := Steps.except_bind_eq_ok_iff.mp hcodec
  obtain ⟨methods, -, hcodec⟩ := Steps.except_bind_eq_ok_iff.mp hcodec
  cases hcodec
  rfl

namespace Document

/-- The names that are exported are those that the document defines and those that are made for
functions. -/
theorem perm_exports {d : Document} {c : Compiled} (hc : d.compile = .ok c) :
    List.Perm ((d.exports c).map (·.name)) (d.defined ++ d.synthesized) := by
  obtain ⟨t, -, h⟩ := compile_eq_ok_iff.mp hc
  obtain ⟨hstructs, -, hservices⟩ := Compiled.ofSymbols_eq_ok_iff.mp h
  have hclasses : (c.structs.map fun s => Script.classExport s.name).map (·.name) =
      d.structLikes.map (·.2.name) ++ d.synthesized := by
    rw [List.map_map, ← d.names_carriers, ← StructCodec.names_of_carriers hstructs]
    rfl
  have hspaces : (c.services.map fun s => Script.namespaceExport s.name).map (·.name) =
      d.services.map (·.name) := by
    rw [List.map_map, ← ServiceCodec.names_of_services hservices]
    rfl
  rw [exports, List.map_append, List.map_append, hclasses, hspaces, ← List.append_assoc,
    List.append_assoc]
  refine (List.perm_append_comm.append_left _).trans ?_
  rw [← List.append_assoc]
  exact d.perm_defined.append_right _

/-- What an accepted document exports has names that differ, unless a definition has the name of a
struct that is made for a function. -/
theorem nodup_exports_iff {d : Document} {c : Compiled} (hc : d.compile = .ok c) :
    ((d.exports c).map (·.name)).Nodup ↔ List.Disjoint d.defined d.synthesized := by
  obtain ⟨t, ht, -⟩ := compile_eq_ok_iff.mp hc
  have hsynthesized : d.synthesized.Nodup := by
    have hcarriers := nodup_carriers hc
    rw [d.names_carriers] at hcarriers
    exact (List.nodup_append.mp hcarriers).2.1
  rw [(perm_exports hc).nodup_iff, List.nodup_append']
  constructor
  · exact fun h => h.2.2
  · exact fun h => ⟨nodup_defined ht, hsynthesized, h⟩

/-- A document in which a struct that is made for a function shares its name with a struct is
refused, for that name unless something else is wrong before. The script of any other document
exports, outside of all blocks, its enums, aliases, constants, classes and namespaces and nothing
else, and their names differ exactly when no definition has the name of a struct that is made for
a function. -/
theorem exports_of_compile (d : Document) :
    (d.Collides → ∃ cause, d.compile = .error cause ∧ d.RefusedFor cause) ∧
      ∀ c, d.compile = .ok c → ∀ settings text, Script.file settings d c = .ok text →
        ∃ pieces, text = Script.header settings ++ "\n\n" ++ Script.layout settings.indent pieces ∧
          List.Forall₂ Script.Export.Opens (d.exports c) (Script.exportLines pieces) ∧
            (((d.exports c).map (·.name)).Nodup ↔ List.Disjoint d.defined d.synthesized) := by
  refine ⟨Collides.refused, fun c hc settings text htext => ?_⟩
  unfold Script.file at htext
  rcases ht : SymbolTable.ofDocument d with e | t
  · rw [ht] at htext
    cases htext
  · rw [ht] at htext
    obtain ⟨pieces, hpieces, htext⟩ := Steps.except_bind_eq_ok_iff.mp htext
    cases htext
    exact ⟨pieces, rfl, Script.exportLines_bodyLines hpieces, nodup_exports_iff hc⟩

/-- A service with one method, after another definition. -/
def echo (definition : Statement) : Document :=
  ⟨[definition, .service ⟨"Echo", none, [⟨"say", .void, [], [], false⟩]⟩]⟩

/-- The service beside a struct without fields. -/
def echoBesideStruct (name : String) : Document := echo (.structLike .struct ⟨name, []⟩)

/-- The service beside an enum without members. -/
def echoBesideEnum (name : String) : Document := echo (.enumeration ⟨name, []⟩)

/-- The codecs of the service alone. -/
def echoCodecs : Compiled :=
  match (echoBesideEnum "Loudness").compile with
  | .ok c => c
  | .error _ => ⟨[], []⟩

/-- A struct with the name of the arguments is refused, and an enum under a name of its own leaves
the exports distinct. -/
theorem exports_of_compile_echo :
    (echoBesideStruct "EchoSayArgs").Collides ∧
      (echoBesideStruct "EchoSayArgs").RefusedFor
        (.resolve (.duplicateDefinition "EchoSayArgs")) ∧
      (echoBesideEnum "Loudness").compile = .ok echoCodecs ∧
      (∃ text, Script.file {} (echoBesideEnum "Loudness") echoCodecs = .ok text) ∧
        (((echoBesideEnum "Loudness").exports echoCodecs).map (·.name)).Nodup := by
  have hcollides : (echoBesideStruct "EchoSayArgs").Collides :=
    .inr ⟨_, List.mem_cons_self, List.mem_cons_self⟩
  have hrefused : (echoBesideStruct "EchoSayArgs").compile =
      .error (.resolve (.duplicateDefinition "EchoSayArgs")) := rfl
  obtain ⟨cause, hcause, hfor⟩ := (exports_of_compile _).1 hcollides
  cases hrefused.symm.trans hcause
  obtain ⟨text, htext⟩ :
      ∃ text, Script.file {} (echoBesideEnum "Loudness") echoCodecs = .ok text := ⟨_, rfl⟩
  obtain ⟨pieces, -, -, hnames⟩ := (exports_of_compile _).2 echoCodecs rfl {} text htext
  have hapart : List.Disjoint ["Loudness", "Echo"] ["EchoSayArgs", "EchoSayResult"] := by simp
  exact ⟨hcollides, hfor, rfl, ⟨text, htext⟩, hnames.mpr hapart⟩

/-- An enum with the name of the arguments is not refused, and two things are exported under this
name. -/
theorem exported_twice_echo :
    (echoBesideEnum "EchoSayArgs").compile = .ok echoCodecs ∧
      "EchoSayArgs" ∈ (echoBesideEnum "EchoSayArgs").synthesized ∧
        ∃ t pieces, SymbolTable.ofDocument (echoBesideEnum "EchoSayArgs") = .ok t ∧
          Script.bodyLines t (echoBesideEnum "EchoSayArgs") echoCodecs = .ok pieces ∧
            ∃ first second others, Script.exportLines pieces = first :: second :: others ∧
              Script.Export.Opens ⟨"enum", "EchoSayArgs", " \x7b"⟩ first ∧
                Script.Export.Opens (Script.classExport "EchoSayArgs") second := by
  obtain ⟨t, ht⟩ : ∃ t, SymbolTable.ofDocument (echoBesideEnum "EchoSayArgs") = .ok t := ⟨_, rfl⟩
  obtain ⟨pieces, hpieces⟩ :
      ∃ pieces, Script.bodyLines t (echoBesideEnum "EchoSayArgs") echoCodecs = .ok pieces :=
    ⟨_, rfl⟩
  refine ⟨rfl, List.mem_cons_self, t, pieces, ht, hpieces, ?_⟩
  have hopens := Script.exportLines_bodyLines hpieces
  generalize Script.exportLines pieces = lines at hopens
  cases hopens with
  | cons hfirst hrest =>
    cases hrest with
    | cons hsecond _ => exact ⟨_, _, _, rfl, hfirst, hsecond⟩

end Document

end Thrift
