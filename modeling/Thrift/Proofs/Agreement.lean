-- Tables of the same definitions in another order. A name is defined once, so it stands for the
-- same in both, and nothing that is made from a table looks at more than what names stand for,
-- which names there are and how many.
import Thrift.Codec.Compile
import Thrift.Proofs.Lookup
import Thrift.Proofs.Widening

namespace Thrift

namespace SymbolTable

/-- Names stand for the same in both tables, and both tables have the same names. -/
structure Agrees (t t' : SymbolTable) : Prop where
  lookup : ∀ name, t.lookup name = t'.lookup name
  unknown : ∀ name, t.unknown name = t'.unknown name
  size : t.size = t'.size

/-- Sorting forgets the order. -/
theorem mergeSort_eq_of_perm {names names' : List String} (h : names.Perm names') :
    names.mergeSort (fun a b => decide (a ≤ b)) = names'.mergeSort fun a b => decide (a ≤ b) := by
  have hsorted : ∀ l : List String,
      (l.mergeSort fun a b => decide (a ≤ b)).Pairwise (fun a b => a ≤ b) := by
    intro l
    have htrans : ∀ a b c : String, decide (a ≤ b) = true → decide (b ≤ c) = true →
        decide (a ≤ c) = true := by
      simpa using fun a b c => String.le_trans
    have htotal : ∀ a b : String, (decide (a ≤ b) || decide (b ≤ a)) = true := by
      simpa using String.le_total
    have hpairwise := List.pairwise_mergeSort htrans htotal l
    simpa using hpairwise
  refine List.Perm.eq_of_pairwise (fun a b _ _ hab hba => String.le_antisymm hab hba)
    (hsorted names) (hsorted names') ?_
  exact (List.mergeSort_perm _ _).trans (h.trans (List.mergeSort_perm _ _).symm)

/-- The order of definitions does not matter where each name is defined once. -/
theorem agrees_of_perm {t t' : SymbolTable} (h : t.definitions.Perm t'.definitions)
    (hnames : t.names.Nodup) : t.Agrees t' := by
  have hfind : ∀ name, t.find? name = t'.find? name := find?_perm h hnames
  have hsorted := mergeSort_eq_of_perm (h.map Definition.name)
  constructor
  · intro name
    rw [SymbolTable.lookup, SymbolTable.lookup, hfind, hfind]
  · intro name
    rw [SymbolTable.unknown, SymbolTable.unknown, names, hsorted]
    rfl
  · exact h.length_eq

namespace Agrees

variable {t t' : SymbolTable} (h : t.Agrees t')

include h

/-! ## What names stand for -/

theorem typedef? (name : String) : t.typedef? name = t'.typedef? name := by
  rw [SymbolTable.typedef?, SymbolTable.typedef?, h.lookup]

theorem cycleBelow (levels : Nat) (path : List String) (type : FieldType) :
    t.cycleBelow levels path type = t'.cycleBelow levels path type := by
  induction levels generalizing path type with
  | zero => rfl
  | succ levels ih => simp only [SymbolTable.cycleBelow, h.typedef?, ih]

theorem follow (levels : Nat) (passed : List String) (type : FieldType) :
    t.follow levels passed type = t'.follow levels passed type := by
  induction levels generalizing passed type with
  | zero => rfl
  | succ levels ih => simp only [SymbolTable.follow, h.typedef?, ih]

theorem resolve (name : String) : t.resolve name = t'.resolve name := by
  simp only [SymbolTable.resolve, underlying, h.lookup, h.unknown, h.size, h.follow]

theorem resolveType (name : String) : t.resolveType name = t'.resolveType name := by
  rw [SymbolTable.resolveType, SymbolTable.resolveType, h.resolve]

theorem service (name : String) : t.service name = t'.service name := by
  simp only [SymbolTable.service, h.lookup, h.unknown]

theorem enumMember (reference : String) : t.enumMember reference = t'.enumMember reference := by
  simp only [SymbolTable.enumMember, h.lookup]

theorem shape (name : String) : t.shape name = t'.shape name := by
  rw [SymbolTable.shape, SymbolTable.shape, h.resolveType]

/-! ## Drafts -/

theorem wireTypeWithin (levels : Nat) (type : FieldType) :
    type.wireTypeWithin t levels = type.wireTypeWithin t' levels := by
  induction levels generalizing type with
  | zero => rfl
  | succ levels ih => simp only [FieldType.wireTypeWithin, h.shape, ih]

theorem wireType (type : FieldType) : type.wireType t = type.wireType t' :=
  h.wireTypeWithin _ type

theorem elementType (container element : FieldType) :
    container.elementType t element = container.elementType t' element := by
  rw [FieldType.elementType, FieldType.elementType, h.wireType]

theorem readWithin (levels : Nat) (type : FieldType) (target : String) :
    Draft.readWithin t levels type target = Draft.readWithin t' levels type target := by
  induction levels generalizing type target with
  | zero => rfl
  | succ levels ih => simp only [Draft.readWithin, h.shape, h.elementType, ih]

theorem read (type : FieldType) (target : String) :
    Draft.read t type target = Draft.read t' type target := by
  simp only [Draft.read, h.readWithin]

theorem writeWithin (levels : Nat) (type : FieldType) (source : Expr) :
    Draft.writeWithin t levels type source = Draft.writeWithin t' levels type source := by
  induction levels generalizing type source with
  | zero => rfl
  | succ levels ih => simp only [Draft.writeWithin, h.shape, h.elementType, ih]

theorem write (type : FieldType) (source : Expr) :
    Draft.write t type source = Draft.write t' type source := by
  simp only [Draft.write, h.writeWithin]

/-! ## Defaults -/

theorem lowerPlain (field : String) (lower : Literal → FieldType → Except CodegenError Value)
    (l : Literal) (type : FieldType) :
    Literal.Place.lowerPlain ⟨t, field⟩ lower l type =
      Literal.Place.lowerPlain ⟨t', field⟩ lower l type := by
  cases type with
  | identifier name =>
    rw [Literal.Place.lowerPlain, Literal.Place.lowerPlain]
    dsimp only
    rw [h.resolveType]
    rfl
  | _ => rfl

theorem lowerWithin (field : String) (levels : Nat) :
    Literal.lowerWithin ⟨t, field⟩ levels = Literal.lowerWithin ⟨t', field⟩ levels := by
  induction levels with
  | zero => rfl
  | succ levels ih =>
    funext l type
    by_cases hplain : l.IsPlain
    · rw [Literal.lowerWithin_of_plain hplain, Literal.lowerWithin_of_plain hplain, ih,
        h.lowerPlain]
    · obtain ⟨reference, hreference⟩ := not_forall.mp hplain
      have hl : l = .identifier reference := not_not.mp hreference
      subst hl
      simp only [Literal.lowerWithin, h.lookup, h.enumMember, ih]
      rfl

theorem lower (field : String) (l : Literal) (type : FieldType) :
    l.lower t field type = l.lower t' field type := by
  rw [Literal.lower, Literal.lower, h.lowerWithin]

theorem defaultOf (struct : String) (f : Field) :
    FieldLayout.defaultOf t struct f = FieldLayout.defaultOf t' struct f := by
  simp only [FieldLayout.defaultOf, h.lower]

/-! ## Codecs -/

theorem ofFields (struct : String) (taken : List Int16) (fs : List Field) :
    FieldLayout.ofFields t struct taken fs = FieldLayout.ofFields t' struct taken fs := by
  induction fs generalizing taken with
  | nil => rfl
  | cons f fs ih =>
    simp only [FieldLayout.ofFields, FieldLayout.ofField, h.defaultOf, h.wireType, ih]

theorem decodeOf (kind : StructKind) (name : String) (fields : List FieldLayout) :
    StructCodec.decodeOf t kind name fields = StructCodec.decodeOf t' kind name fields := by
  have hcase : StructCodec.decodeCase t = StructCodec.decodeCase t' := by
    funext f
    simp only [StructCodec.decodeCase, StructCodec.decodeField, h.read]
  rw [StructCodec.decodeOf, StructCodec.decodeOf, hcase]

theorem encodeOf (kind : StructKind) (name : String) (fields : List FieldLayout) :
    StructCodec.encodeOf t kind name fields = StructCodec.encodeOf t' kind name fields := by
  have hfield : StructCodec.encodeField t = StructCodec.encodeField t' := by
    funext f
    simp only [StructCodec.encodeField, h.write]
  rw [StructCodec.encodeOf, StructCodec.encodeOf, hfield]

theorem ofDefinition (kind : StructKind) (d : StructLike) :
    StructCodec.ofDefinition t kind d = StructCodec.ofDefinition t' kind d := by
  simp only [StructCodec.ofDefinition, h.ofFields, h.decodeOf, h.encodeOf]

/-! ## Services -/

theorem exceptionNameWithin (levels : Nat) (type : FieldType) :
    Service.exceptionNameWithin t levels type = Service.exceptionNameWithin t' levels type := by
  induction levels generalizing type with
  | zero => rfl
  | succ levels ih => simp only [Service.exceptionNameWithin, h.resolveType, ih]

theorem methodOf (s : Service) (f : Function) :
    Service.methodOf t s f = Service.methodOf t' s f := by
  have hslot : Service.exceptionSlot t = Service.exceptionSlot t' := by
    funext struct f
    simp only [Service.exceptionSlot, h.exceptionNameWithin]
  rw [Service.methodOf, Service.methodOf, hslot]

theorem lineage (origin : String) (budget : Nat) (s : Service) (chain : List Service) :
    Service.lineage t origin budget s chain = Service.lineage t' origin budget s chain := by
  induction budget generalizing s chain with
  | zero => rfl
  | succ budget ih => simp only [Service.lineage, h.service, ih]

theorem codec (s : Service) : Service.codec t s = Service.codec t' s := by
  have hmethods : Service.addMethods t = Service.addMethods t' := by
    funext methods s
    simp only [Service.addMethods, h.methodOf]
  rw [Service.codec, Service.codec, h.lineage, h.size, hmethods]

end Agrees

end SymbolTable

end Thrift
