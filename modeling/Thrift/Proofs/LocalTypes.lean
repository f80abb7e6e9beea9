-- The types that decode locals get. In the procedures of a document the loop that spreads types
-- gives each local the type that its field declares at its position, typedefs left closed, so the
-- script names the type of every container that it makes.
import Thrift.Proofs.Landings
import Thrift.Proofs.Refusals
import Thrift.Proofs.WrittenTypes

namespace Thrift

open Script (Locals Insertion Step Scene Piece opened innerType? partType? partType?_concat
  stagedLocals insertions bindInsertion bindElements decodeLocals fieldType? stmtLines blockLines
  typeOf Sweeps)
open Stmt (walkAll among keptIn)

variable {t : SymbolTable}

/-! ## Types of a form -/

theorem opened_of_final {type : FieldType} (h : t.Final type) : opened t type = type := by
  cases type with
  | identifier name =>
    unfold opened
    dsimp only
    split
    · rename_i d u hr
      rcases SymbolTable.resolveType_cases hr with ⟨_, _, -, ⟨⟩⟩ | ⟨_, -, ⟨⟩⟩ | ⟨_, _, hd, -, ⟨⟩⟩
      have hnone := h name rfl
      rw [SymbolTable.typedef?_eq_some_iff.mpr hd] at hnone
      cases hnone
    · rfl
  | _ => rfl

theorem opened_alias {name : String} {u : FieldType} (h : t.shape name = .ok (.alias u)) :
    opened t (.identifier name) = u := by
  rcases SymbolTable.shape_cases h with ⟨_, _, -, ⟨⟩⟩ | ⟨_, -, ⟨⟩⟩ | ⟨d, u, hd, hu, ⟨⟩⟩
  unfold opened
  dsimp only
  rw [SymbolTable.resolveType_typedef hd hu]

/-- The type has the containers of the form, each behind a typedef or not. -/
def Form.Shapes (t : SymbolTable) : Form → FieldType → Prop
  | list e, type => ∃ element, opened t type = .list element ∧ e.Shapes t element
  | set e, type => ∃ element, opened t type = .set element ∧ e.Shapes t element
  | map k e, type =>
    ∃ key element, opened t type = .map key element ∧ k.Shapes t key ∧ e.Shapes t element
  | _, _ => True

/-- Only what the type opens to counts. -/
theorem Form.Shapes.of_opened {form : Form} {type type' : FieldType} (h : form.Shapes t type)
    (heq : opened t type' = opened t type) : form.Shapes t type' := by
  cases form with
  | list e =>
    obtain ⟨element, hopened, he⟩ := h
    exact ⟨element, heq.trans hopened, he⟩
  | set e =>
    obtain ⟨element, hopened, he⟩ := h
    exact ⟨element, heq.trans hopened, he⟩
  | map k e =>
    obtain ⟨key, element, hopened, hk, he⟩ := h
    exact ⟨key, element, heq.trans hopened, hk, he⟩
  | _ => trivial

theorem Form.shapes_of_formWithin {levels : Nat} {type : FieldType} {form : Form}
    (h : type.formWithin t levels = .ok form) : form.Shapes t type := by
  induction levels generalizing type form with
  | zero => cases h
  | succ levels ih =>
    cases type with
    | identifier name =>
      rw [FieldType.formWithin] at h
      obtain ⟨shape, hs, h⟩ := Steps.except_bind_eq_ok_iff.mp h
      cases shape with
      | «alias» u =>
        -- A typedef stands for the last type behind it, so opening once is enough.
        have hu : opened t u = u := opened_of_final (SymbolTable.final_of_shape hs)
        exact (ih h).of_opened ((opened_alias hs).trans hu.symm)
      | _ =>
        cases h
        trivial
    | list element =>
      obtain ⟨e, he, rfl⟩ := FieldType.formWithin_list h
      exact ⟨element, rfl, ih he⟩
    | set element =>
      obtain ⟨e, he, rfl⟩ := FieldType.formWithin_set h
      exact ⟨element, rfl, ih he⟩
    | map key element =>
      obtain ⟨k, e, hk, he, rfl⟩ := FieldType.formWithin_map h
      exact ⟨key, element, rfl, ih hk, ih he⟩
    | _ =>
      cases h
      trivial

/-- The type is a container of the kind. -/
def FieldType.OfKind : FieldType → ContainerKind → Prop
  | list _, .list _ => True
  | set _, .set _ => True
  | map _ _, .map _ _ => True
  | _, _ => False

/-! ## Locals with a type of their position -/

section Placed

variable (t) (fields : List FieldLayout) (code : List Stmt)

/-- The local lands in one of the fields, which declares the type for its position. -/
def Placed (x : String) (type : FieldType) : Prop :=
  ∃ f ∈ fields, ∃ steps, Lands code x f.name steps ∧ partType? t f.type steps = some type

/-- What the statement does with locals suits the types of their positions. -/
def Sited : Stmt → Prop
  | .read _ x => ∃ type, Placed t fields code x type
  | .newContainer kind x => ∃ type, Placed t fields code x type ∧ (opened t type).OfKind kind
  | .insert _ x key _ => ∃ type element, Placed t fields code x type ∧
      innerType? t type .element = some element ∧
      ∀ k, key = some k → ∃ keyType, innerType? t type .key = some keyType
  | .stage field _ => ∃ f ∈ fields, f.name = field
  | .forEach _ _ _ _ _ => False
  | _ => True

end Placed

section

variable {fields : List FieldLayout} {code : List Stmt} {x : String} {type : FieldType}

theorem Placed.element {kind : ContainerKind} {key : Option String} {value : String}
    {element : FieldType} (h : .insert kind x key value ∈ walkAll code)
    (hx : Placed t fields code x type) (helement : innerType? t type .element = some element) :
    Placed t fields code value element := by
  obtain ⟨f, hf, steps, hlands, hpart⟩ := hx
  refine ⟨f, hf, _, .element h hlands, ?_⟩
  rw [partType?_concat, hpart]
  exact helement

theorem Placed.key {kind : ContainerKind} {key value : String} {keyType : FieldType}
    (h : .insert kind x (some key) value ∈ walkAll code)
    (hx : Placed t fields code x type) (hkey : innerType? t type .key = some keyType) :
    Placed t fields code key keyType := by
  obtain ⟨f, hf, steps, hlands, hpart⟩ := hx
  refine ⟨f, hf, _, .key h hlands, ?_⟩
  rw [partType?_concat, hpart]
  exact hkey

/-- Where no local is kept twice and names differ, a local lands in one field at one position. -/
theorem field_unique (hkept : (keptIn code).Nodup) (hnames : (fields.map (·.name)).Nodup)
    {f f' : FieldLayout} {steps steps' : List Step} (hf : f ∈ fields) (hf' : f' ∈ fields)
    (h : Lands code x f.name steps) (h' : Lands code x f'.name steps') :
    f = f' ∧ steps = steps' := by
  obtain ⟨hname, rfl⟩ := h.unique hkept h'
  exact ⟨List.inj_on_of_nodup_map hnames hf hf' hname, rfl⟩

theorem Placed.unique (hkept : (keptIn code).Nodup) (hnames : (fields.map (·.name)).Nodup)
    {type' : FieldType} (h : Placed t fields code x type) (h' : Placed t fields code x type') :
    type = type' := by
  obtain ⟨f, hf, steps, hlands, hpart⟩ := h
  obtain ⟨f', hf', steps', hlands', hpart'⟩ := h'
  obtain ⟨rfl, rfl⟩ := field_unique hkept hnames hf hf' hlands hlands'
  exact Option.some.inj (hpart.symm.trans hpart')

/-! ## The statements of a decode procedure -/

/-- A container is made and filled as its type says, if its elements are read as theirs say. -/
theorem sited_readContainer {kind : ContainerKind} {m i value : String} {key : Option String}
    {inner : List Stmt} {element : FieldType} (hx : Placed t fields code x type)
    (hkind : (opened t type).OfKind kind) (helement : innerType? t type .element = some element)
    (hkey : ∀ k, key = some k → ∃ keyType, innerType? t type .key = some keyType)
    (hcode : ∀ s ∈ walkAll (Draft.readContainer kind m i x (inner ++ [.insert kind x key value])),
      s ∈ walkAll code)
    (hinner : .insert kind x key value ∈ walkAll code → (∀ s ∈ walkAll inner, s ∈ walkAll code) →
      ∀ s ∈ walkAll inner, Sited t fields code s) :
    ∀ s ∈ walkAll (Draft.readContainer kind m i x (inner ++ [.insert kind x key value])),
      Sited t fields code s := by
  rw [Stmt.walkAll_readContainer, Stmt.walkAll_append] at hcode ⊢
  simp only [List.forall_mem_cons, List.forall_mem_append] at hcode ⊢
  obtain ⟨-, -, -, ⟨hreads, hinsert⟩, -⟩ := hcode
  have hstmt : .insert kind x key value ∈ walkAll code := hinsert _ (List.mem_cons_self ..)
  refine ⟨trivial, ⟨type, hx, hkind⟩, trivial, ⟨hinner hstmt hreads, fun s hs => ?_⟩, trivial,
    fun _ hs => absurd hs List.not_mem_nil⟩
  cases List.mem_singleton.mp hs
  exact ⟨type, element, hx, helement, hkey⟩

/-- The code that loads a value of a placed local suits the fields. -/
theorem Form.sited_loading {form : Form} (hshape : form.Shapes t type)
    (hx : Placed t fields code x type) {header : String} {n : Nat}
    (hcode : ∀ s ∈ walkAll (form.loading header x n).1, s ∈ walkAll code) :
    ∀ s ∈ walkAll (form.loading header x n).1, Sited t fields code s := by
  -- The procedure around stays the same, so that positions are those of the whole field.
  induction form generalizing x type n with
  | scalar kind =>
    intro s hs
    cases List.mem_singleton.mp hs
    exact ⟨type, hx⟩
  | struct name =>
    intro s hs
    cases List.mem_singleton.mp hs
    exact ⟨type, hx⟩
  | list e ih =>
    obtain ⟨element, hopened, he⟩ := hshape
    have helement : innerType? t type .element = some element := by rw [innerType?, hopened]
    rw [loading] at hcode ⊢
    refine sited_readContainer hx (hopened ▸ trivial) helement (fun _ hk => by cases hk) hcode ?_
    exact fun hinsert hbody => ih he (hx.element hinsert helement) hbody
  | set e ih =>
    obtain ⟨element, hopened, he⟩ := hshape
    have helement : innerType? t type .element = some element := by rw [innerType?, hopened]
    rw [loading] at hcode ⊢
    refine sited_readContainer hx (hopened ▸ trivial) helement (fun _ hk => by cases hk) hcode ?_
    exact fun hinsert hbody => ih he (hx.element hinsert helement) hbody
  | map k e ihk ihe =>
    obtain ⟨keyType, element, hopened, hk, he⟩ := hshape
    have helement : innerType? t type .element = some element := by rw [innerType?, hopened]
    have hkey : innerType? t type .key = some keyType := by rw [innerType?, hopened]
    rw [loading] at hcode ⊢
    refine sited_readContainer hx (hopened ▸ trivial) helement (fun _ _ => ⟨keyType, hkey⟩) hcode ?_
    intro hinsert hbody
    rw [Stmt.walkAll_append] at hbody ⊢
    obtain ⟨hkeys, helements⟩ := List.forall_mem_append.mp hbody
    refine List.forall_mem_append.mpr ⟨?_, ?_⟩
    · exact ihk hk (hx.key hinsert hkey) hkeys
    · exact ihe he (hx.element hinsert helement) helements
  | void =>
    intro s hs
    cases List.mem_singleton.mp hs
    trivial

theorem Member.sited_loading {f : FieldLayout} {m : Member} (hf : f ∈ fields)
    (hm : GivesMember t f m) {n : Nat}
    (hcode : ∀ s ∈ walkAll (m.loading n).1.2, s ∈ walkAll code) :
    (∀ s ∈ walkAll (m.loading n).1.2, Sited t fields code s) ∧
      (f.isVoid = false → ∃ x, Lands code x f.name []) := by
  unfold loading at hcode ⊢
  rw [hm.laidOut.isVoid_eq]
  split at hcode
  · rename_i hvoid
    rw [if_pos hvoid]
    refine ⟨fun s hs => ?_, fun hne => absurd (hvoid.symm.trans hne) (by decide)⟩
    simp only [walkAll, Stmt.walk, List.cons_append, List.nil_append, List.append_nil,
      List.mem_cons, List.not_mem_nil, or_false, or_self] at hs
    rcases hs with rfl | rfl <;> trivial
  · rename_i hvoid
    rw [if_neg hvoid]
    dsimp only at hcode ⊢
    rw [Stmt.walkAll_case] at hcode ⊢
    obtain ⟨-, hrest⟩ := List.forall_mem_cons.mp hcode
    obtain ⟨hbody, hstage⟩ := List.forall_mem_append.mp hrest
    have hstaged : .stage m.name (Names.temporary "value" (n + 1)) ∈ walkAll code :=
      hstage _ (List.mem_cons_self ..)
    rw [← hm.laidOut.name_eq] at hstaged ⊢
    have hshape := Form.shapes_of_formWithin hm.form_eq
    have hplaced : Placed t fields code (Names.temporary "value" (n + 1)) f.type :=
      ⟨f, hf, [], .staged hstaged, rfl⟩
    refine ⟨List.forall_mem_cons.mpr ⟨trivial, List.forall_mem_append.mpr ⟨?_, ?_⟩⟩,
      fun _ => ⟨_, .staged hstaged⟩⟩
    · exact Form.sited_loading hshape hplaced hbody
    · intro s hs
      rcases List.mem_pair.mp hs with rfl | rfl
      · exact ⟨f, hf, rfl⟩
      · trivial

/-- Every statement of a decode procedure suits the fields, and each field that is not void has a
local that is staged for it. -/
theorem Record.sited_decode {r : Record} (hgives : List.Forall₂ (GivesMember t) fields r.members) :
    (∀ s ∈ walkAll r.decode, Sited t fields r.decode s) ∧
      ∀ f ∈ fields, f.isVoid = false → ∃ x, Lands r.decode x f.name [] := by
  have hcases : ∀ m ∈ r.members, ∀ k, (m.loading k).1 ∈ numbered Member.loading r.members 0 →
      ∀ s ∈ walkAll (m.loading k).1.2, s ∈ walkAll r.decode := by
    intro m _ k hk s hs
    rw [walkAll_decode]
    refine List.mem_append_left _ (List.mem_append_right _ ?_)
    exact Stmt.mem_walkAll_flatMap.mpr ⟨_, hk, hs⟩
  constructor
  · rw [walkAll_decode]
    refine List.forall_mem_append.mpr ⟨List.forall_mem_append.mpr ⟨?_, ?_⟩, ?_⟩
    · intro s hs
      simp only [List.mem_cons, List.not_mem_nil, or_false] at hs
      rcases hs with rfl | rfl | rfl | rfl | rfl <;> trivial
    · intro s hs
      obtain ⟨case, hcase, hs⟩ := Stmt.mem_walkAll_flatMap.mp hs
      obtain ⟨m, hm, k, rfl⟩ := exists_of_mem_numbered hcase
      obtain ⟨f, hf, hgives⟩ := Steps.forall₂_mem_right hgives hm
      exact (Member.sited_loading hf hgives (hcases m hm k hcase)).1 s hs
    · intro s hs
      simp only [List.mem_cons, List.not_mem_nil, or_false] at hs
      rcases hs with rfl | rfl | rfl | rfl <;> trivial
  · intro f hf hvoid
    obtain ⟨m, hm, hgives⟩ := Steps.forall₂_mem_left hgives hf
    obtain ⟨k, hk⟩ := exists_mem_numbered Member.loading hm 0
    exact (Member.sited_loading hf hgives (hcases m hm k hk)).2 hvoid

end

/-! ## The loop over drafted code -/

theorem mem_insertions_iff {code : List Stmt} {i : Insertion} :
    i ∈ insertions code ↔ ∃ kind, .insert kind i.container i.key i.value ∈ walkAll code := by
  rw [insertions, List.mem_filterMap]
  constructor
  · rintro ⟨s, hs, hi⟩
    split at hi
    · rename_i kind _ _ _
      cases hi
      exact ⟨kind, hs⟩
    · cases hi
  · rintro ⟨kind, hs⟩
    exact ⟨_, hs, rfl⟩

section Codec

variable {c : StructCodec} {x : String} {type : FieldType} {l : Locals}

/-- Each local that has a type is staged for a field of the type. -/
def OfFields (c : StructCodec) (l : Locals) : Prop := ∀ x type, l.lookup x = some type →
  ∃ f ∈ c.fields, f.type = type ∧ .stage f.name x ∈ walkAll c.decode

theorem ofFields_stagedLocals (c : StructCodec) : OfFields c (stagedLocals c) := by
  refine List.foldlRecOn (motive := OfFields c) _ _ (fun _ _ h => by cases h) fun l hl s hs => ?_
  split
  · rename_i field value
    rcases hfield : fieldType? c field with _ | declared
    · exact hl
    · intro x type h
      by_cases hx : x = value
      · subst hx
        rw [Locals.lookup_bind_self] at h
        cases h
        obtain ⟨f, hf, rfl⟩ := Option.map_eq_some_iff.mp hfield
        have hname : f.name = field := by simpa using List.find?_some hf
        exact ⟨f, List.mem_of_find?_eq_some hf, rfl, hname ▸ hs⟩
      · rw [Locals.lookup_bind_ne hx] at h
        exact hl x type h
  · exact hl

theorem typed_stagedLocals {f : FieldLayout} (hf : f ∈ c.fields)
    (h : .stage f.name x ∈ walkAll c.decode) : (stagedLocals c).Typed x := by
  have hdeclared : ∃ declared, fieldType? c f.name = some declared := by
    rw [fieldType?, ← Option.isSome_iff_exists, Option.isSome_map]
    exact List.find?_isSome.mpr ⟨f, hf, beq_self_eq_true _⟩
  obtain ⟨declared, hdeclared⟩ := hdeclared
  obtain ⟨before, behind, hwalk⟩ := List.append_of_mem h
  rw [stagedLocals, hwalk, List.foldl_append, List.foldl_cons]
  refine List.foldlRecOn (motive := fun l => Locals.Typed l x) _ _ ?_ fun l hl s _ => ?_
  · dsimp only
    rw [hdeclared]
    exact Locals.typed_bind_iff.mpr (.inl rfl)
  · split
    · split
      · exact Locals.typed_bind_iff.mpr (.inr hl)
      · exact hl
    · exact hl

/-- What the loop keeps in drafted code: types are those of positions, staged locals have one, and
the key of an insertion has one when the value has. -/
structure Suits (t : SymbolTable) (c : StructCodec) (l : Locals) : Prop where
  placed : ∀ x type, l.lookup x = some type → Placed t c.fields c.decode x type
  staged : ∀ f ∈ c.fields, ∀ x, .stage f.name x ∈ walkAll c.decode → l.Typed x
  keyed : ∀ kind container key value, .insert kind container (some key) value ∈ walkAll c.decode →
    l.Typed value → l.Typed key

/-- The codec has fields of distinct names, and a decode procedure that was drafted for them. -/
structure Drafted (t : SymbolTable) (c : StructCodec) : Prop where
  kept : (keptIn c.decode).Nodup
  names : (c.fields.map (·.name)).Nodup
  sited : ∀ s ∈ walkAll c.decode, Sited t c.fields c.decode s

theorem suits_stagedLocals (hc : Drafted t c) : Suits t c (stagedLocals c) where
  placed x type h := by
    obtain ⟨f, hf, rfl, hstage⟩ := ofFields_stagedLocals c _ _ h
    exact ⟨f, hf, [], .staged hstage, rfl⟩
  staged f hf x h := typed_stagedLocals hf h
  keyed kind container key value h htyped := by
    -- A value that is put into a container is not staged.
    obtain ⟨type, htype⟩ := Option.isSome_iff_exists.mp htyped
    obtain ⟨f, -, -, hstage⟩ := ofFields_stagedLocals c _ _ htype
    cases eq_of_keeps hc.kept h hstage (mem_keeps_value ..) (List.mem_cons_self ..)

theorem Suits.bindInsertion (hc : Drafted t c) (hl : Suits t c l) {i : Insertion}
    (hi : i ∈ insertions c.decode) : Suits t c (bindInsertion t l i) := by
  obtain ⟨kind, hs⟩ := mem_insertions_iff.mp hi
  unfold Script.bindInsertion
  split
  · exact hl
  rcases hcontainer : l.lookup i.container with _ | type
  · exact hl
  have hplaced := hl.placed _ _ hcontainer
  obtain ⟨type', element, hplaced', helement, hkey⟩ := hc.sited _ hs
  obtain rfl := hplaced.unique hc.kept hc.names hplaced'
  dsimp only
  refine ⟨fun x T h => ?_, fun f hf x h => Script.typed_bindElements (hl.staged f hf x h),
    fun kind' container' key' value' h htyped => ?_⟩
  · rcases Script.lookup_bindElements h with h | ⟨rfl, hT⟩ | ⟨hx, hT⟩
    · exact hl.placed x T h
    · exact hplaced.element hs hT
    · rw [hx] at hs
      exact hplaced.key hs hT
  · by_cases hbefore : l.Typed value'
    · exact Script.typed_bindElements (hl.keyed _ _ _ _ h hbefore)
    · obtain ⟨T, hT⟩ := Option.isSome_iff_exists.mp htyped
      rcases Script.lookup_bindElements hT with hT | ⟨rfl, -⟩ | ⟨hx, -⟩
      · exact absurd (Option.isSome_iff_exists.mpr ⟨T, hT⟩) hbefore
      · -- The value has its type by this insertion, which then has the key as well.
        have heq := eq_of_keeps hc.kept h hs (mem_keeps_value ..) (mem_keeps_value ..)
        injection heq with _ _ hsame _
        obtain ⟨keyType, hkeyType⟩ := hkey key' hsame.symm
        rw [← hsame]
        exact Script.typed_key_bindElements hkeyType helement
      · rw [hx] at hs
        have heq := eq_of_keeps hc.kept h hs (mem_keeps_value ..) (mem_keeps_key ..)
        injection heq with _ _ hsame _
        exact Option.some.inj hsame ▸ htyped

/-- At the end of the loop a value has a type when its container has one. -/
theorem Suits.typed_value (hc : Drafted t c) (hl : Suits t c l)
    (hfixed : ∀ i ∈ insertions c.decode, Script.bindInsertion t l i = l) {kind : ContainerKind}
    {container value : String} {key : Option String}
    (h : .insert kind container key value ∈ walkAll c.decode) (hcontainer : l.Typed container) :
    l.Typed value := by
  by_contra hfree
  obtain ⟨type, htype⟩ := Option.isSome_iff_exists.mp hcontainer
  obtain ⟨type', element, hplaced', helement, -⟩ := hc.sited _ h
  obtain rfl := (hl.placed _ _ htype).unique hc.kept hc.names hplaced'
  have hsame := hfixed ⟨container, key, value⟩ (mem_insertions_iff.mpr ⟨kind, h⟩)
  have htyped : (bindElements t type key value l).Typed value :=
    Script.typed_value_bindElements helement
  have hnone : ¬ (l.lookup value).isSome = true := hfree
  rw [Script.bindInsertion, if_neg hnone] at hsame
  dsimp only at hsame
  rw [htype] at hsame
  exact hfree (hsame ▸ htyped)

/-- At the end of the loop every local that lands has a type. -/
theorem Suits.typed_of_lands (hc : Drafted t c) (hl : Suits t c l)
    (hfixed : ∀ i ∈ insertions c.decode, Script.bindInsertion t l i = l) {field : String}
    {steps : List Step} (h : Lands c.decode x field steps) : l.Typed x := by
  induction h with
  | staged h =>
    obtain ⟨f, hf, rfl⟩ := hc.sited _ h
    exact hl.staged f hf _ h
  | element h _ ih => exact hl.typed_value hc hfixed h ih
  | key h _ ih => exact hl.keyed _ _ _ _ h (hl.typed_value hc hfixed h ih)

theorem suits_decodeLocals (hc : Drafted t c) : Suits t c (decodeLocals t c) := by
  obtain ⟨n, -, hsweeps⟩ := Script.sweeps_decodeLocals t c
  exact hsweeps.preserves (fun i hi l hl => hl.bindInsertion hc hi) (suits_stagedLocals hc)

/-- A local gets the type that its field has at its position. -/
theorem lookup_decodeLocals (hc : Drafted t c) {f : FieldLayout} (hf : f ∈ c.fields)
    {steps : List Step} (h : Lands c.decode x f.name steps) :
    ∃ type, partType? t f.type steps = some type ∧ (decodeLocals t c).lookup x = some type := by
  obtain ⟨n, -, hsweeps⟩ := Script.sweeps_decodeLocals t c
  have hfixed := hsweeps.fixed (Script.single_stagedLocals c)
  have hsuits := suits_decodeLocals hc
  obtain ⟨type, htype⟩ := Option.isSome_iff_exists.mp (hsuits.typed_of_lands hc hfixed h)
  obtain ⟨f', hf', steps', hlands, hpart⟩ := hsuits.placed x type htype
  obtain ⟨rfl, rfl⟩ := field_unique hc.kept hc.names hf hf' h hlands
  exact ⟨type, hpart, htype⟩

theorem Placed.lookup_decodeLocals (hc : Drafted t c) (h : Placed t c.fields c.decode x type) :
    (decodeLocals t c).lookup x = some type := by
  obtain ⟨f, hf, steps, hlands, hpart⟩ := h
  obtain ⟨type', hpart', hlookup⟩ := Thrift.lookup_decodeLocals hc hf hlands
  rw [hlookup, ← hpart', hpart]

end Codec

/-! ## Documents -/

/-- The locals of a statement that hold values. -/
def Stmt.holds : Stmt → List String
  | read _ x => [x]
  | newContainer _ x => [x]
  | insert _ container key value => container :: (key.toList ++ [value])
  | stage _ value => [value]
  | _ => []

/-- The lines of a decode procedure, with the types that its locals get. -/
def decodeLines (t : SymbolTable) (c : StructCodec) : List Piece :=
  (blockLines ⟨t, c⟩ c.decode (decodeLocals t c)).1

/-- The locals of the decode procedure have the types that the fields declare for them. -/
structure StructCodec.TypesLocals (t : SymbolTable) (c : StructCodec) : Prop where
  /-- A field that has values has a local that is staged for it. -/
  staged : ∀ f ∈ c.fields, f.isVoid = false → ∃ x, Lands c.decode x f.name []
  /-- A local that holds a value lands in a field. -/
  lands : ∀ x ∈ among Stmt.holds c.decode, ∃ f ∈ c.fields, ∃ steps, Lands c.decode x f.name steps
  /-- It has the type that the field has at the position. -/
  types : ∀ f ∈ c.fields, ∀ x steps, Lands c.decode x f.name steps →
    ∃ type, partType? t f.type steps = some type ∧ (decodeLocals t c).lookup x = some type
  /-- A container is made as one of the type that its local has. -/
  containers : ∀ kind x, .newContainer kind x ∈ walkAll c.decode →
    ∃ type, (decodeLocals t c).lookup x = some type ∧ (opened t type).OfKind kind ∧
      .line ("const " ++ x ++ ": " ++ typeOf (opened t type) ++ " = new " ++
        typeOf (opened t type) ++ "();") ∈ decodeLines t c
  /-- A value is read as one of the type that its local has. -/
  reads : ∀ codec x, .read codec x ∈ walkAll c.decode →
    ∃ type, (decodeLocals t c).lookup x = some type ∧
      .line ("const " ++ x ++ ": " ++ typeOf (opened t type) ++ " = " ++
        Script.readExpr codec ++ ";") ∈ decodeLines t c

namespace Drafted

variable {c : StructCodec}

theorem lands (hc : Drafted t c) {x : String} (hx : x ∈ among Stmt.holds c.decode) :
    ∃ type, Placed t c.fields c.decode x type := by
  obtain ⟨s, hs, hx⟩ := List.mem_flatMap.mp hx
  have hsited := hc.sited s hs
  cases s with
  | read codec y =>
    cases List.mem_singleton.mp hx
    exact hsited
  | newContainer kind y =>
    cases List.mem_singleton.mp hx
    obtain ⟨type, hplaced, -⟩ := hsited
    exact ⟨type, hplaced⟩
  | insert kind container key value =>
    obtain ⟨type, element, hplaced, helement, hkey⟩ := hsited
    rcases List.mem_cons.mp hx with rfl | hx
    · exact ⟨type, hplaced⟩
    · rcases List.mem_append.mp hx with hx | hx
      · cases Option.mem_toList.mp hx
        obtain ⟨keyType, hkeyType⟩ := hkey x rfl
        exact ⟨keyType, hplaced.key hs hkeyType⟩
      · cases List.mem_singleton.mp hx
        exact ⟨element, hplaced.element hs helement⟩
  | stage field value =>
    cases List.mem_singleton.mp hx
    obtain ⟨f, hf, rfl⟩ := hsited
    exact ⟨f.type, f, hf, [], .staged hs, rfl⟩
  | _ => exact absurd hx List.not_mem_nil

theorem lines_mem (hc : Drafted t c) {s : Stmt} (hs : s ∈ walkAll c.decode) {text : String}
    (h : (stmtLines ⟨t, c⟩ s (decodeLocals t c)).1 = [.line text]) :
    .line text ∈ decodeLines t c := by
  have heach : ∀ st ∈ walkAll c.decode, ¬ Script.IsForEach st := by
    intro st hst
    have hsited := hc.sited st hst
    cases st with
    | forEach kind source key value body => exact hsited.elim
    | _ => exact id
  refine (Script.blockLines_written ⟨t, c⟩ c.decode (decodeLocals t c) heach).lines s hs ?_
  rw [h]
  exact List.mem_cons_self ..

theorem typesLocals (hc : Drafted t c)
    (hstaged : ∀ f ∈ c.fields, f.isVoid = false → ∃ x, Lands c.decode x f.name []) :
    c.TypesLocals t where
  staged := hstaged
  lands x hx := by
    obtain ⟨type, f, hf, steps, hlands, -⟩ := hc.lands hx
    exact ⟨f, hf, steps, hlands⟩
  types f hf x steps h := lookup_decodeLocals hc hf h
  containers kind x h := by
    obtain ⟨type, hplaced, hkind⟩ := hc.sited _ h
    have hlookup := hplaced.lookup_decodeLocals hc
    refine ⟨type, hlookup, hkind, hc.lines_mem h ?_⟩
    simp only [stmtLines, Scene.localType, hlookup, Option.map_some, Option.getD_some]
  reads codec x h := by
    obtain ⟨type, hplaced⟩ := hc.sited _ h
    have hlookup := hplaced.lookup_decodeLocals hc
    refine ⟨type, hlookup, hc.lines_mem h ?_⟩
    simp only [stmtLines, Scene.localType, hlookup, Option.map_some, Option.getD_some]

end Drafted

namespace StructCodec

variable {kind : StructKind} {d : StructLike} {codec : StructCodec}

/-- The fields of a codec are those of its definition. -/
theorem declares_of_ofDefinition (h : ofDefinition t kind d = .ok codec) : codec.name = d.name ∧
    codec.fields.map (fun f => (f.name, f.type)) = d.fields.map fun f => (f.name, f.type) := by
  obtain ⟨ls, hls, h⟩ := Steps.except_bind_eq_ok_iff.mp h
  obtain ⟨dec, -, h⟩ := Steps.except_bind_eq_ok_iff.mp h
  obtain ⟨enc, -, h⟩ := Steps.except_bind_eq_ok_iff.mp h
  cases h
  refine ⟨rfl, (Steps.map_eq_of_forall₂ (declaredBy_of_ofFields hls) fun f l hl => ?_).symm⟩
  rw [hl.name_eq, hl.type_eq]

theorem typesLocals_of_ofDefinition (h : ofDefinition t kind d = .ok codec)
    (hnames : (codec.fields.map (·.name)).Nodup) : codec.TypesLocals t := by
  obtain ⟨r, hr, -, hdecode, -⟩ := ofDefinition_procedures h
  obtain ⟨hsited, hstaged⟩ := Record.sited_decode (givesMembers_of_ofDefinition h hr)
  have hkept := Record.nodup_keptIn_decode (Record.solid_of_ofDefinition hr)
  rw [← hdecode] at hsited hstaged hkept
  exact Drafted.typesLocals ⟨hkept, hnames, hsited⟩ hstaged

end StructCodec

/-- The loop that gives decode locals their types ends for every procedure. In the procedures of a
document it gives each local the type that the declared field has at the position of the local, so
that every value and every container is written with this type. -/
theorem Document.decode_locals_typed :
    (∀ (t : SymbolTable) (c : StructCodec), ∃ n ≤ (insertions c.decode).length + 1,
      Sweeps t (insertions c.decode) n (stagedLocals c) (decodeLocals t c)) ∧
    ∀ (d : Document) (t : SymbolTable) (c : Compiled), SymbolTable.ofDocument d = .ok t →
      d.compile = .ok c → ∀ s ∈ c.structs,
        (∃ carrier ∈ d.carriers, s.name = carrier.2.name ∧
          s.fields.map (fun f => (f.name, f.type)) =
            carrier.2.fields.map fun f => (f.name, f.type)) ∧
        ((s.fields.map (·.name)).Nodup → s.TypesLocals t) := by
  refine ⟨Script.sweeps_decodeLocals, fun d t c ht h s hs => ?_⟩
  obtain ⟨t', ht', h⟩ := compile_eq_ok_iff.mp h
  cases ht.symm.trans ht'
  obtain ⟨hstructs, -, -⟩ := Compiled.ofSymbols_eq_ok_iff.mp h
  obtain ⟨carrier, hcarrier, hs⟩ :=
    Steps.forall₂_mem_right (Steps.mapM_eq_ok_iff.mp hstructs) hs
  exact ⟨⟨carrier, hcarrier, StructCodec.declares_of_ofDefinition hs⟩,
    StructCodec.typesLocals_of_ofDefinition hs⟩

namespace Document

def atlasTable : SymbolTable :=
  match SymbolTable.ofDocument atlas with
  | .ok t => t
  | .error _ => ⟨[]⟩

theorem ofDocument_atlas : SymbolTable.ofDocument atlas = .ok atlasTable := by
  obtain ⟨t, ht, -⟩ := compile_eq_ok_iff.mp compile_atlas
  rw [atlasTable, ht]

/-- A page is known by its typedef, and the places on it by the type behind that. -/
theorem decode_locals_typed_atlas :
    SymbolTable.ofDocument atlas = .ok atlasTable ∧ atlas.compile = .ok atlasCodecs ∧
      ∃ s ∈ atlasCodecs.structs, s.name = "Atlas" ∧ (s.fields.map (·.name)).Nodup ∧
        s.TypesLocals atlasTable ∧
        (decodeLocals atlasTable s).lookup "value_5" = some (.identifier "Page") ∧
        (decodeLocals atlasTable s).lookup "value_8" = some (.identifier "Place") := by
  have hatlas : ∃ s ∈ atlasCodecs.structs, s.name = "Atlas" ∧ (s.fields.map (·.name)).Nodup ∧
      (decodeLocals atlasTable s).lookup "value_5" = some (.identifier "Page") ∧
      (decodeLocals atlasTable s).lookup "value_8" = some (.identifier "Place") := by
    decide +kernel
  obtain ⟨s, hs, hname, hnames, hpage, hplace⟩ := hatlas
  obtain ⟨-, htypes⟩ :=
    decode_locals_typed.2 atlas atlasTable atlasCodecs ofDocument_atlas compile_atlas s hs
  exact ⟨ofDocument_atlas, compile_atlas, s, hs, hname, hnames, htypes hnames, hpage, hplace⟩

end Document

end Thrift
