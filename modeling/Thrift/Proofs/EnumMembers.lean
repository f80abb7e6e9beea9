-- References to members of enums. A constant that is named like the reference, or like the member
-- behind its last dot, is taken before the member; where there is none, the reference means the
-- value of the member for every type that is an i32 on the wire.
import Thrift.Proofs.Cycles
import Thrift.Proofs.Defaults

namespace Thrift

/-! ## Dotted names -/

theorem lastSegment_append {as bs : List Char} (h : '.' ∉ bs) :
    lastSegment (as ++ '.' :: bs) = bs := by
  have hbs : ∀ c ∈ bs.reverse, (c != '.') = true := by
    intro c hc
    rw [bne_iff_ne]
    rintro rfl
    exact h (List.mem_reverse.mp hc)
  rw [lastSegment, List.reverse_append, List.reverse_cons, List.append_assoc,
    List.takeWhile_append_of_pos hbs]
  simp

theorem baseName_dotted (a : String) {b : String} (h : '.' ∉ b.toList) :
    baseName (a ++ "." ++ b) = b := by
  have hcs : (a ++ "." ++ b).toList = a.toList ++ '.' :: b.toList := by simp
  rw [baseName, hcs, lastSegment_append h, String.ofList_toList]

theorem splitLast_dotted (a : String) {b : String} (h : '.' ∉ b.toList) :
    splitLast (a ++ "." ++ b) = some (a, b) := by
  have hcs : (a ++ "." ++ b).toList = a.toList ++ '.' :: b.toList := by simp
  have hlast : a.toList.length + (b.toList.length + 1) - b.toList.length - 1 = a.toList.length := by
    omega
  unfold splitLast
  simp [hcs, lastSegment_append h, hlast]

namespace SymbolTable

variable {t : SymbolTable}

theorem find?_of_mem (hnames : t.names.Nodup) {x : Definition} (hx : x ∈ t.definitions) :
    t.find? x.name = some x :=
  find?_of_nodup hnames hx

theorem lookup_of_mem (hnames : t.names.Nodup) {x : Definition} (hx : x ∈ t.definitions) :
    t.lookup x.name = some x := by
  rw [lookup, find?_of_mem hnames hx]
  rfl

/-- A name in front of which nothing is defined stands for what its last segment does. -/
theorem lookup_qualified {scope name : String} (hname : '.' ∉ name.toList)
    (hfree : t.find? (scope ++ "." ++ name) = none) :
    t.lookup (scope ++ "." ++ name) = t.find? name := by
  rw [lookup, hfree, baseName_dotted scope hname]
  rfl

/-- A dotted name stands for a definition of this name or of its last segment. -/
theorem name_of_lookup {a b : String} (hb : '.' ∉ b.toList) {x : Definition}
    (h : t.lookup (a ++ "." ++ b) = some x) : x.name = a ++ "." ++ b ∨ x.name = b := by
  rw [lookup, baseName_dotted a hb, Option.or_eq_some_iff] at h
  rcases h with h | ⟨-, h⟩
  · exact .inl (by simpa using List.find?_some h)
  · exact .inr (by simpa using List.find?_some h)

end SymbolTable

/-! ## References -/

/-- How a member is referred to: by the names of the enum and of the member, or with an include in
front where no definition has the name of the enum with the include. -/
inductive Enumeration.Refers (t : SymbolTable) (e : Enumeration) (member : String) : String → Prop
  | plain : Refers t e member (e.name ++ "." ++ member)
  | qualified (scope : String) (hname : '.' ∉ e.name.toList)
      (hfree : t.find? (scope ++ "." ++ e.name) = none) :
      Refers t e member (scope ++ "." ++ e.name ++ "." ++ member)

namespace Enumeration.Refers

variable {t : SymbolTable} {e : Enumeration} {member reference : String}

/-- What stands before the last dot stands for the enum. -/
theorem enum_found (h : e.Refers t member reference) (hnames : t.names.Nodup)
    (he : .enumeration e ∈ t.definitions) :
    ∃ enum, reference = enum ++ "." ++ member ∧ t.lookup enum = some (.enumeration e) := by
  cases h with
  | plain => exact ⟨e.name, rfl, SymbolTable.lookup_of_mem hnames he⟩
  | qualified scope hname hfree =>
    refine ⟨scope ++ "." ++ e.name, rfl, ?_⟩
    rw [SymbolTable.lookup_qualified hname hfree]
    exact SymbolTable.find?_of_mem hnames he

/-- The reference has the value of the first member of the name. -/
theorem enumMember (h : e.Refers t member reference) (hnames : t.names.Nodup)
    (he : .enumeration e ∈ t.definitions) (hdot : '.' ∉ member.toList) {value : Int32}
    (hvalue : e.memberValues.lookup member = some value) :
    t.enumMember reference = .ok value := by
  obtain ⟨enum, rfl, hlookup⟩ := h.enum_found hnames he
  rw [SymbolTable.enumMember, splitLast_dotted enum hdot]
  dsimp only
  rw [hlookup]
  dsimp only
  rw [hvalue]

theorem constant_name (h : e.Refers t member reference) (hdot : '.' ∉ member.toList)
    {k : Constant} (hk : t.lookup reference = some (.constant k)) :
    k.name = reference ∨ k.name = member := by
  cases h with
  | plain => exact SymbolTable.name_of_lookup hdot hk
  | qualified scope _ _ => exact SymbolTable.name_of_lookup hdot hk

end Enumeration.Refers

/-! ## Numbers -/

namespace Literal

variable {t : SymbolTable} {field : String}

theorem toInt_member (value : Int32) : (Int64.ofInt value.toInt).toInt = value.toInt := by
  have hlow := value.le_toInt
  have hhigh := value.toInt_lt
  apply Int64.toInt_ofInt_of_le <;> omega

/-- The number of a member lies in the range of an i32 and stays what it is. -/
theorem intIn_member (p : Place) (expected slot : String) (value : Int32) :
    p.intIn expected slot Int32.minValue.toInt Int32.maxValue.toInt
      (.int (Int64.ofInt value.toInt)) = .ok value.toInt := by
  refine Steps.except_bind_eq_ok_iff.mpr ⟨_, rfl, ?_⟩
  rw [toInt_member, if_pos ⟨value.minValue_le_toInt, value.toInt_le⟩]
  rfl

/-- The number of a member is this i32 for an i32 and for every enum. -/
theorem lowerPlain_member {lower : Literal → FieldType → Except CodegenError Value}
    {type : FieldType} (h : type.Shows t (.scalar .i32)) (value : Int32) :
    Place.lowerPlain ⟨t, field⟩ lower (.int (Int64.ofInt value.toInt)) type = .ok (.i32 value) := by
  cases h with
  | scalar hk =>
    rw [Place.lowerPlain_of_scalar hk, Place.asScalar, Place.asI32, intIn_member]
    exact congrArg _ (congrArg _ (Int32.ofInt_toInt value))
  | enumeration hd =>
    rw [Place.lowerPlain]
    dsimp only
    rw [SymbolTable.resolveType_enumeration hd]
    dsimp only
    rw [Place.asEnum, intIn_member]
    exact congrArg _ (congrArg _ (Int32.ofInt_toInt value))

/-- Behind a typedef the number is lowered in one level more. -/
theorem lowerWithin_member (hnames : t.names.Nodup) (hacyclic : t.Acyclic) {type : FieldType}
    (h : type.HasForm t (.scalar .i32)) (value : Int32) (levels : Nat) :
    lowerWithin ⟨t, field⟩ (levels + 2) (.int (Int64.ofInt value.toInt)) type =
      .ok (.i32 value) := by
  have hplain : (Literal.int (Int64.ofInt value.toInt)).IsPlain := by rintro reference ⟨⟩
  rw [lowerWithin_of_plain hplain]
  cases h with
  | scalar hk => exact lowerPlain_member (.scalar hk) value
  | enumeration hd => exact lowerPlain_member (.enumeration hd) value
  | «alias» hd h =>
    obtain ⟨u, hu, hfinal⟩ :=
      SymbolTable.underlying_succeeds hnames hacyclic (SymbolTable.mem_of_lookup hd)
    have hshows := ((FieldType.hasForm_underlying_iff hd hu).mpr (.alias hd h)).shows hfinal
    rw [Place.lowerPlain]
    dsimp only
    rw [SymbolTable.resolveType_typedef hd hu]
    dsimp only
    rw [lowerWithin_of_plain hplain]
    exact lowerPlain_member hshows value

/-- A reference to a member of an enum means the value of the first member of the name, for an i32
and for everything that is an enum in the end, unless what the reference stands for is a constant.
Then the constant has the name of the reference or of the member, and its value is taken. -/
theorem lower_memberReference {ds : List Document} (ht : SymbolTable.ofDocuments ds = .ok t)
    {e : Enumeration} (he : .enumeration e ∈ t.definitions) {member reference : String}
    (hdot : '.' ∉ member.toList) {value : Int32}
    (hvalue : e.memberValues.lookup member = some value) (hr : e.Refers t member reference)
    {type : FieldType} (htype : type.HasForm t (.scalar .i32)) (field : String) :
    ((∀ k, t.lookup reference ≠ some (.constant k)) →
        (Literal.identifier reference).lower t field type = .ok (.i32 value)) ∧
      ∀ k, t.lookup reference = some (.constant k) →
        (k.name = reference ∨ k.name = member) ∧
          (Literal.identifier reference).lower t field type =
            lowerWithin ⟨t, field⟩ maxTypeDepth k.value type := by
  obtain ⟨-, hnames, hacyclic⟩ := SymbolTable.ofDocuments_iff_acyclic.mp ht
  have hmember := hr.enumMember hnames he hdot hvalue
  constructor
  · intro hfree
    have hreferent : t.referent? reference = some (.int (Int64.ofInt value.toInt)) := by
      unfold SymbolTable.referent?
      split
      · rename_i k hk
        exact absurd hk (hfree k)
      · rw [hmember]
    rw [lower, lowerWithin_reference]
    dsimp only
    rw [hreferent]
    exact lowerWithin_member hnames hacyclic htype value 62
  · intro k hk
    refine ⟨hr.constant_name hdot hk, ?_⟩
    rw [lower, lowerWithin_reference]
    dsimp only
    rw [SymbolTable.referent?, hk]

def status : Enumeration := ⟨"Status", [⟨"ACTIVE", none⟩, ⟨"GONE", some 9⟩, ⟨"LOST", none⟩]⟩

def state : Typedef := ⟨"State", .identifier "Status"⟩

/-- States of parcels, with a constant that is named like one of them. -/
def parcels : Document :=
  ⟨[.enumeration status, (.typedef state), .constant ⟨"GONE", .i32, .int 5⟩]⟩

theorem lower_memberReference_parcels : ∃ t, SymbolTable.ofDocuments [parcels] = .ok t ∧
    (.enumeration status ∈ t.definitions ∧ '.' ∉ "LOST".toList ∧
      status.memberValues.lookup "LOST" = some 10 ∧
      status.Refers t "LOST" "shared.Status.LOST" ∧
      (FieldType.identifier "State").HasForm t (.scalar .i32)) ∧
    (Literal.identifier "shared.Status.LOST").lower t "state" (.identifier "State") =
      .ok (.i32 10) := by
  have ht : SymbolTable.ofDocuments [parcels] = .ok (SymbolTable.merged [parcels]) := rfl
  have hmem : Definition.enumeration status ∈ (SymbolTable.merged [parcels]).definitions :=
    List.mem_cons_self
  have hr : status.Refers (SymbolTable.merged [parcels]) "LOST" "shared.Status.LOST" :=
    .qualified "shared" (by decide) rfl
  have hform : (FieldType.identifier "State").HasForm (SymbolTable.merged [parcels])
      (.scalar .i32) :=
    .alias (d := state) rfl (.enumeration (d := status) rfl)
  refine ⟨_, ht, ⟨hmem, by decide, rfl, hr, hform⟩, ?_⟩
  exact (lower_memberReference ht hmem (by decide) rfl hr hform "state").1 (by rintro k ⟨⟩)

/-- The constant is taken in the place of the member. -/
theorem member_hidden_parcels : ∃ t, SymbolTable.ofDocuments [parcels] = .ok t ∧
    .enumeration status ∈ t.definitions ∧ status.memberValues.lookup "GONE" = some 9 ∧
    status.Refers t "GONE" "Status.GONE" ∧
    (FieldType.identifier "Status").HasForm t (.scalar .i32) ∧
    (Literal.identifier "Status.GONE").lower t "state" (.identifier "Status") = .ok (.i32 5) :=
  ⟨_, rfl, List.mem_cons_self, rfl, .plain, .enumeration (d := status) rfl, rfl⟩

end Literal

end Thrift
