-- Documents as trees. The tree that a document is written as is read as that document again.
-- Writing leaves nothing out: an absent part is null, and a part that a reader may do without is
-- there as well.
import Thrift.Proofs.Steps
import Thrift.Schema.Json

namespace Thrift

/-! ## Literals with finite doubles -/

namespace Literal

mutual

/-- Every double in the literal is finite. -/
def isFinite : Literal → Bool
  | double x => x.isFinite
  | list items => itemsFinite items
  | map entries => entriesFinite entries
  | _ => true

def itemsFinite : List Literal → Bool
  | [] => true
  | l :: ls => l.isFinite && itemsFinite ls

def entriesFinite : List (Literal × Literal) → Bool
  | [] => true
  | (key, value) :: es => key.isFinite && value.isFinite && entriesFinite es

end

theorem itemsFinite_iff {ls : List Literal} :
    itemsFinite ls = true ↔ ∀ l ∈ ls, l.isFinite = true := by
  induction ls with
  | nil => simp [itemsFinite]
  | cons l ls ih => simp [itemsFinite, ih]

theorem entriesFinite_iff {es : List (Literal × Literal)} :
    entriesFinite es = true ↔ ∀ e ∈ es, e.1.isFinite = true ∧ e.2.isFinite = true := by
  induction es with
  | nil => simp [entriesFinite]
  | cons e es ih => simp [entriesFinite, ih]

end Literal

/-- The literals of a function: the defaults of its arguments and of its exceptions. -/
def Function.literals (f : Function) : List Literal :=
  (f.fields ++ f.throws).filterMap (·.default)

/-- The literals of a statement, those inside of others not counted. -/
def Statement.literals : Statement → List Literal
  | constant d => [d.value]
  | structLike _ d => d.fields.filterMap (·.default)
  | service d => d.functions.flatMap Function.literals
  | _ => []

/-- Every double in the document is finite. -/
def Document.FiniteDoubles (d : Document) : Prop :=
  ∀ s ∈ d.body, ∀ l ∈ s.literals, l.isFinite = true

/-! ## What is written out -/

/-- The value that a tree has under a name when the condition holds. -/
def Json.ShowsIf (condition : Prop) (j : Json) (name : String) (value : Json) : Prop :=
  condition → j.get? name = some value

structure Field.WrittenOut (f : Field) : Prop where
  id : f.toJson.ShowsIf (f.id = none) "fieldID" .null
  requiredness : f.toJson.ShowsIf (f.requiredness = .default) "requiredness" (.string "default")
  default : f.toJson.ShowsIf (f.default = none) "defaultValue" .null
  line : f.toJson.ShowsIf (f.line = none) "line" .null

structure Function.WrittenOut (f : Function) : Prop where
  arguments : f.toJson.ShowsIf (f.fields = []) "fields" (.list [])
  exceptions : f.toJson.ShowsIf (f.throws = []) "throws" (.list [])
  oneway : f.toJson.ShowsIf (f.oneway = false) "oneway" (.bool false)
  inner : ∀ field ∈ f.fields ++ f.throws, field.WrittenOut

/-- Whatever a statement may do without is written: absent parts and empty lists. -/
def Statement.WrittenOut (s : Statement) : Prop :=
  match s with
  | structLike _ d =>
    s.toJson.ShowsIf (d.fields = []) "fields" (.list []) ∧ ∀ f ∈ d.fields, f.WrittenOut
  | enumeration d =>
    s.toJson.ShowsIf (d.members = []) "members" (.list []) ∧
      ∀ m ∈ d.members, m.toJson.ShowsIf (m.initializer = none) "initializer" .null
  | service d =>
    s.toJson.ShowsIf (d.parent = none) "extends" .null ∧
      s.toJson.ShowsIf (d.functions = []) "functions" (.list []) ∧
      ∀ f ∈ d.functions, f.WrittenOut
  | _ => True

structure Document.WrittenOut (d : Document) : Prop where
  body : d.toJson.ShowsIf (d.body = []) "body" (.list [])
  statements : ∀ s ∈ d.body, s.WrittenOut

theorem Field.writtenOut (f : Field) : f.WrittenOut := by
  constructor
  all_goals
    intro h
    rw [toJson, h]
    rfl

theorem Function.writtenOut (f : Function) : f.WrittenOut := by
  refine ⟨?_, ?_, ?_, fun field _ => field.writtenOut⟩
  all_goals
    intro h
    rw [toJson, h]
    rfl

theorem Statement.writtenOut (s : Statement) : s.WrittenOut := by
  cases s with
  | structLike kind d =>
    refine ⟨?_, fun f _ => f.writtenOut⟩
    intro h
    rw [toJson, members, StructLike.members, h]
    rfl
  | enumeration d =>
    constructor
    · intro h
      rw [toJson, members, h]
      rfl
    · intro m _ h
      rw [EnumMember.toJson, h]
      rfl
  | service d =>
    refine ⟨?_, ?_, fun f _ => f.writtenOut⟩
    all_goals
      intro h
      rw [toJson, members, h]
      rfl
  | _ => trivial

theorem Document.writtenOut (d : Document) : d.WrittenOut := by
  refine ⟨?_, fun s _ => s.writtenOut⟩
  intro h
  rw [toJson, h]
  rfl

/-! ## Reading parts -/

namespace Json

variable {α : Type} {write : α → Json} {read : Json → Except Fault α}

theorem asIntIn_int {low high n : Int} (hlow : low ≤ n) (hhigh : n ≤ high) :
    (int n).asIntIn low high = .ok n := by
  simp [asIntIn, hlow, hhigh]

theorem asInt16_int (n : Int16) : (int n.toInt).asInt16 = .ok n := by
  have hhigh : n.toInt ≤ Int16.maxValue.toInt := Int16.toInt_le n
  rw [asInt16, asIntIn_int (Int16.minValue_le_toInt n) hhigh]
  simp [Except.map]

theorem asInt32_int (n : Int32) : (int n.toInt).asInt32 = .ok n := by
  rw [asInt32, asIntIn_int (Int32.minValue_le_toInt n) (Int32.toInt_le n)]
  simp [Except.map]

theorem asInt64_int (n : Int64) : (int n.toInt).asInt64 = .ok n := by
  rw [asInt64, asIntIn_int (Int64.minValue_le_toInt n) (Int64.toInt_le n)]
  simp [Except.map]

theorem asUInt32_int (n : UInt32) : (int n.toNat).asUInt32 = .ok n := by
  have hhigh := n.toNat_lt_size
  rw [asUInt32, asIntIn_int (by omega) (by omega)]
  simp [Except.map]

/-- An optional part is read as it was written, if no value of it is written as null. -/
theorem optional_jsonOption (hnull : ∀ a, write a ≠ .null) {o : Option α}
    (h : ∀ a, o = some a → read (write a) = .ok a) :
    optional read (some (jsonOption write o)) = .ok o := by
  cases o with
  | none => rfl
  | some a =>
    rw [jsonOption, optional]
    · rw [h a rfl]
      rfl
    · exact hnull a

theorem mapM_read {as : List α} (h : ∀ a ∈ as, read (write a) = .ok a) :
    (as.map write).mapM read = .ok as := by
  rw [Steps.mapM_eq_ok_iff, List.forall₂_map_left_iff, List.forall₂_same]
  exact h

/-- A list is read as it was written, if its elements are. -/
theorem listOf_map {as : List α} (h : ∀ a ∈ as, read (write a) = .ok a) :
    listOf read (.list (as.map write)) = .ok as := mapM_read h

theorem height_of_mem_items {j : Json} {js : List Json} (h : j ∈ js) :
    j.height ≤ heightOfItems js := by
  induction js with
  | nil => cases h
  | cons k ks ih =>
    rw [heightOfItems]
    rcases List.mem_cons.mp h with rfl | h
    · exact Nat.le_max_left _ _
    · exact Nat.le_trans (ih h) (Nat.le_max_right _ _)

end Json

/-! ## Types and literals -/

/-- A type is read as it was written wherever it stands, within its nesting. -/
theorem FieldType.ofJsonWithin_toJson {type : FieldType} {budget : Nat}
    (h : type.toJson.height < budget) (standing : Json.Standing) :
    ofJsonWithin budget standing type.toJson = .ok type := by
  induction budget generalizing type standing with
  | zero => omega
  | succ budget ih =>
    cases type with
    | list element =>
      simp only [toJson, Json.height, Json.heightOfMembers] at h
      change (do return list (← ofJsonWithin budget .inside element.toJson)) = _
      rw [ih (by omega)]
      rfl
    | set element =>
      simp only [toJson, Json.height, Json.heightOfMembers] at h
      change (do return set (← ofJsonWithin budget .inside element.toJson)) = _
      rw [ih (by omega)]
      rfl
    | map key value =>
      simp only [toJson, Json.height, Json.heightOfMembers] at h
      change (do
        return map (← ofJsonWithin budget .inside key.toJson)
          (← ofJsonWithin budget .inside value.toJson)) = _
      rw [ih (by omega), ih (by omega)]
      rfl
    | _ => rfl

theorem FieldType.ofJson_toJson (type : FieldType) : ofJson type.toJson = .ok type :=
  ofJsonWithin_toJson (Nat.lt_succ_self _) .inside

namespace Literal

theorem toJsonItems_eq (ls : List Literal) : toJsonItems ls = ls.map toJson := by
  induction ls with
  | nil => rfl
  | cons l ls ih => rw [toJsonItems, ih, List.map_cons]

/-- An entry of a map literal as it is written. -/
def entryToJson (e : Literal × Literal) : Json :=
  .object [("key", e.1.toJson), ("value", e.2.toJson)]

theorem toJsonEntries_eq (es : List (Literal × Literal)) :
    toJsonEntries es = es.map entryToJson := by
  induction es with
  | nil => rfl
  | cons e es ih => rw [toJsonEntries, ih, List.map_cons, entryToJson]

/-- A literal is read as it was written wherever it stands, within its nesting. -/
theorem ofJsonWithin_toJson {l : Literal} (hl : l.isFinite = true) {budget : Nat}
    (h : l.toJson.height < budget) (standing : Json.Standing) :
    ofJsonWithin budget standing l.toJson = .ok l := by
  induction budget generalizing l with
  | zero => omega
  | succ budget ih =>
    cases l with
    | int n =>
      change (do return int (← (Json.int n.toInt).asInt64)) = _
      rw [Json.asInt64_int]
      rfl
    | double x =>
      change (do return double (← (Json.ofDouble x).asDouble)) = _
      rw [isFinite] at hl
      rw [Json.ofDouble, if_pos hl]
      rfl
    | list items =>
      rw [isFinite, itemsFinite_iff] at hl
      rw [toJson, toJsonItems_eq] at h ⊢
      simp only [Json.height, Json.heightOfMembers] at h
      change (do
        return list (← Json.listOf (ofJsonWithin budget standing) (.list (items.map toJson)))) = _
      have hitems : ∀ item ∈ items, ofJsonWithin budget standing item.toJson = .ok item := by
        intro item hitem
        have hheight := Json.height_of_mem_items (List.mem_map_of_mem (f := toJson) hitem)
        exact ih (hl item hitem) (by omega)
      rw [Json.listOf_map hitems]
      rfl
    | map entries =>
      rw [isFinite, entriesFinite_iff] at hl
      rw [toJson, toJsonEntries_eq] at h ⊢
      simp only [Json.height, Json.heightOfMembers] at h
      change (do
        return map (← Json.listOf (entryOfJson (ofJsonWithin budget standing))
          (.list (entries.map entryToJson)))) = _
      have hentries : ∀ e ∈ entries,
          entryOfJson (ofJsonWithin budget standing) (entryToJson e) = .ok e := by
        intro e he
        have hheight := Json.height_of_mem_items (List.mem_map_of_mem (f := entryToJson) he)
        simp only [entryToJson, Json.height, Json.heightOfMembers] at hheight
        change (do
          return (← ofJsonWithin budget standing e.1.toJson,
            ← ofJsonWithin budget standing e.2.toJson)) = _
        rw [ih (hl e he).1 (by omega), ih (hl e he).2 (by omega)]
        rfl
      rw [Json.listOf_map hentries]
      rfl
    | _ => rfl

theorem ofJson_toJson {l : Literal} (hl : l.isFinite = true) : ofJson l.toJson = .ok l :=
  ofJsonWithin_toJson hl (Nat.lt_succ_self _) .inside

theorem toJson_ne_null (l : Literal) : l.toJson ≠ .null := by
  cases l <;> simp [toJson]

end Literal

/-! ## Definitions -/

theorem Requiredness.ofJson_word (r : Requiredness) : ofJson (.string r.word) = .ok r := by
  cases r <;> rfl

theorem Field.ofJson_toJson {f : Field} (hf : ∀ l, f.default = some l → l.isFinite = true) :
    ofJson f.toJson = .ok f := by
  have hid : Json.optional Json.asInt16 (some (jsonOption (fun n => .int n.toInt) f.id)) =
      .ok f.id := Json.optional_jsonOption (by simp) fun n _ => Json.asInt16_int n
  have hdefault : Json.optional Literal.ofJson (some (jsonOption Literal.toJson f.default)) =
      .ok f.default :=
    Json.optional_jsonOption Literal.toJson_ne_null fun l hl => Literal.ofJson_toJson (hf l hl)
  have hline : Json.optional Json.asUInt32 (some (jsonOption (fun n => .int n.toNat) f.line)) =
      .ok f.line := Json.optional_jsonOption (by simp) fun n _ => Json.asUInt32_int n
  change (do
    return Field.mk f.name
      (← Json.optional Json.asInt16 (some (jsonOption (fun n : Int16 => .int n.toInt) f.id)))
      (← FieldType.ofJson f.type.toJson) (← Requiredness.ofJson (.string f.requiredness.word))
      (← Json.optional Literal.ofJson (some (jsonOption Literal.toJson f.default)))
      (← Json.optional Json.asUInt32
        (some (jsonOption (fun n : UInt32 => .int n.toNat) f.line)))) = _
  rw [hid, FieldType.ofJson_toJson, Requiredness.ofJson_word, hdefault, hline]
  rfl

theorem Field.listOf_toJson {fs : List Field}
    (hfs : ∀ l ∈ fs.filterMap (·.default), l.isFinite = true) :
    Json.listOf ofJson (.list (fs.map toJson)) = .ok fs := by
  apply Json.listOf_map
  intro f hf
  apply ofJson_toJson
  intro l hl
  exact hfs l (List.mem_filterMap.mpr ⟨f, hf, hl⟩)

theorem StructLike.ofJson_members {d : StructLike}
    (hd : ∀ l ∈ d.fields.filterMap (·.default), l.isFinite = true) :
    ofJson (.object d.members) = .ok d := by
  change (do
    return StructLike.mk d.name (← Json.listOf Field.ofJson (.list (d.fields.map Field.toJson)))) =
      _
  rw [Field.listOf_toJson hd]
  rfl

theorem EnumMember.ofJson_toJson (m : EnumMember) : ofJson m.toJson = .ok m := by
  have hinitializer : Json.optional Json.asInt32
      (some (jsonOption (fun n => .int n.toInt) m.initializer)) = .ok m.initializer :=
    Json.optional_jsonOption (by simp) fun n _ => Json.asInt32_int n
  change (do
    return EnumMember.mk m.name (← Json.optional Json.asInt32
      (some (jsonOption (fun n : Int32 => .int n.toInt) m.initializer)))) = _
  rw [hinitializer]
  rfl

theorem Function.ofJson_toJson {f : Function} (hf : ∀ l ∈ f.literals, l.isFinite = true) :
    ofJson f.toJson = .ok f := by
  rw [literals, List.filterMap_append] at hf
  obtain ⟨hfields, hthrows⟩ := List.forall_mem_append.mp hf
  change (do
    return Function.mk f.name (← FieldType.ofJson f.returnType.toJson)
      (← Json.listOf Field.ofJson (.list (f.fields.map Field.toJson)))
      (← Json.listOf Field.ofJson (.list (f.throws.map Field.toJson))) f.oneway) = _
  rw [FieldType.ofJson_toJson, Field.listOf_toJson hfields, Field.listOf_toJson hthrows]
  rfl

theorem Service.ofJson_members {d : Service}
    (hd : ∀ l ∈ (Statement.service d).literals, l.isFinite = true) :
    ofJson (.object (Statement.service d).members) = .ok d := by
  have hparent : Json.optional Json.asString (some (jsonOption .string d.parent)) = .ok d.parent :=
    Json.optional_jsonOption (by simp) fun _ _ => rfl
  have hfunctions : Json.listOf Function.ofJson (.list (d.functions.map Function.toJson)) =
      .ok d.functions := by
    apply Json.listOf_map
    intro f hf
    exact Function.ofJson_toJson fun l hl => hd l (List.mem_flatMap.mpr ⟨f, hf, hl⟩)
  change (do
    return Service.mk d.name
      (← Json.optional Json.asString (some (jsonOption .string d.parent)))
      (← Json.listOf Function.ofJson (.list (d.functions.map Function.toJson)))) = _
  rw [hparent, hfunctions]
  rfl

theorem Constant.ofJson_members {d : Constant} (hd : d.value.isFinite = true) :
    ofJson (.object (Statement.constant d).members) = .ok d := by
  change (do
    return Constant.mk d.name (← FieldType.ofJson d.type.toJson)
      (← Literal.ofJson d.value.toJson)) = _
  rw [FieldType.ofJson_toJson, Literal.ofJson_toJson hd]
  rfl

theorem Enumeration.ofJson_members (d : Enumeration) :
    ofJson (.object (Statement.enumeration d).members) = .ok d := by
  have hmembers : Json.listOf EnumMember.ofJson (.list (d.members.map EnumMember.toJson)) =
      .ok d.members := Json.listOf_map fun m _ => EnumMember.ofJson_toJson m
  change (do
    return Enumeration.mk d.name
      (← Json.listOf EnumMember.ofJson (.list (d.members.map EnumMember.toJson)))) = _
  rw [hmembers]
  rfl

theorem Typedef.ofJson_members (d : Typedef) :
    ofJson (.object (Statement.typedef d).members) = .ok d := by
  change (do return Typedef.mk d.name (← FieldType.ofJson d.type.toJson)) = _
  rw [FieldType.ofJson_toJson]
  rfl

/-! ## Documents -/

theorem Statement.ofJson_toJson {s : Statement} (hs : ∀ l ∈ s.literals, l.isFinite = true) :
    ofJson s.toJson = .ok s := by
  cases s with
  | namespaceLine line => rfl
  | includeLine path => rfl
  | constant d =>
    have hread := Constant.ofJson_members (hs d.value List.mem_cons_self)
    change (do return constant (← Constant.ofJson (.object (constant d).members))) = _
    rw [hread]
    rfl
  | structLike kind d =>
    have hread := StructLike.ofJson_members hs
    -- The tag tells the kind, so reading goes another way for each.
    cases kind with
    | struct =>
      change (do return structLike .struct (← StructLike.ofJson (.object d.members))) = _
      rw [hread]
      rfl
    | union =>
      change (do return structLike .union (← StructLike.ofJson (.object d.members))) = _
      rw [hread]
      rfl
    | exception =>
      change (do return structLike .exception (← StructLike.ofJson (.object d.members))) = _
      rw [hread]
      rfl
  | enumeration d =>
    change (do return enumeration (← Enumeration.ofJson (.object (enumeration d).members))) = _
    rw [Enumeration.ofJson_members]
    rfl
  | typedef d =>
    change (do return typedef (← Typedef.ofJson (.object (typedef d).members))) = _
    rw [Typedef.ofJson_members]
    rfl
  | service d =>
    change (do return service (← Service.ofJson (.object (service d).members))) = _
    rw [Service.ofJson_members hs]
    rfl

/-- A document whose doubles are finite is read as it was written, and it was written with all
that a reader may do without. -/
theorem Document.read_of_written {d : Document} (h : d.FiniteDoubles) :
    ofJson d.toJson = .ok d ∧ d.WrittenOut := by
  refine ⟨?_, d.writtenOut⟩
  have hbody : Json.listOf Statement.ofJson (.list (d.body.map Statement.toJson)) = .ok d.body :=
    Json.listOf_map fun s hs => Statement.ofJson_toJson (h s hs)
  change (do
    return Document.mk (← Json.listOf Statement.ofJson (.list (d.body.map Statement.toJson)))) = _
  rw [hbody]
  rfl

namespace Document

def span : Typedef := ⟨"Span", .i64⟩

/-- A document with a statement of each sort, some with parts that are absent. -/
def almanac : Document := ⟨[
  .namespaceLine ⟨"js", "almanac"⟩,
  .includeLine "shared.json",
  .constant ⟨"WEIGHTS", .map (.set .string) (.list .double),
    .map [(.list [.string "a"], .list [.double ⟨0x3ff8000000000000⟩, .int (-1)]),
      (.list [], .identifier "NONE")]⟩,
  .structLike .union ⟨"Empty", []⟩,
  .structLike .exception ⟨"Late", [⟨"by", none, .identifier "Span", .default, none, none⟩,
    ⟨"fatal", some (-2), .bool, .required, some (.bool false), some 7⟩]⟩,
  .enumeration ⟨"Phase", [⟨"NEW", none⟩, ⟨"FULL", some (-4)⟩]⟩,
  (.typedef span),
  .service ⟨"Tides", none, [⟨"next", .void, [], [⟨"late", some 1, .identifier "Late", .optional,
    none, none⟩], false⟩]⟩]⟩

theorem read_of_written_almanac : almanac.FiniteDoubles ∧
    ofJson almanac.toJson = .ok almanac ∧ almanac.WrittenOut := by
  have hfinite : almanac.FiniteDoubles := by
    unfold FiniteDoubles
    decide
  exact ⟨hfinite, read_of_written hfinite⟩

/-- Infinity is written as null, which is no literal. -/
example : ofJson (toJson ⟨[.constant ⟨"BIG", .double, .double ⟨0x7ff0000000000000⟩⟩]⟩) =
    .error .misshapen := rfl

end Document

end Thrift
