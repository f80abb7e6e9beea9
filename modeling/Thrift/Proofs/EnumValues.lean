-- The values of the members of an enum. A member with an initializer has it as its value, and each
-- other one counts up from the member before it, unless that one has the largest value there is:
-- from there the count falls to the smallest. References to members, literals and the script of a
-- document all tell the value of the first member of a name.
import Thrift.Proofs.Blocks
import Thrift.Proofs.EnumMembers

namespace Thrift

/-! ## Counting -/

/-- One member: it has its initializer or the number that the one before it leaves. -/
theorem values_of_member {ms : List EnumMember} {i : Nat} {m : EnumMember} (hm : ms[i]? = some m)
    (next : Int32) : ∃ n, ((memberValuesFrom next ms).map (·.2))[i]? = some (m.initializer.getD n) ∧
      (i = 0 → n = next) ∧
      ∀ j, i = j + 1 → ∃ u, ((memberValuesFrom next ms).map (·.2))[j]? = some u ∧ n = u + 1 := by
  induction ms generalizing i next with
  | nil => cases hm
  | cons m₀ ms ih =>
    cases i with
    | zero =>
      cases hm
      exact ⟨next, rfl, fun _ => rfl, nofun⟩
    | succ i =>
      obtain ⟨n, hvalue, hfirst, hlater⟩ := ih hm (m₀.initializer.getD next + 1)
      refine ⟨n, hvalue, nofun, ?_⟩
      rintro j ⟨⟩
      cases i with
      | zero => exact ⟨_, rfl, hfirst rfl⟩
      | succ i => exact hlater i rfl

theorem names_memberValuesFrom (next : Int32) (ms : List EnumMember) :
    (memberValuesFrom next ms).map (·.1) = ms.map (·.name) := by
  induction ms generalizing next with
  | nil => rfl
  | cons m ms ih =>
    rw [memberValuesFrom, List.map_cons, List.map_cons, ih]

/-- So many steps of counting are exact as long as they stay in the range. -/
theorem toInt_add_steps (u : Int32) (k : Nat) :
    (u + Int32.ofNat k).toInt = u.toInt + k ↔ u.toInt + k ≤ Int32.maxValue.toInt := by
  constructor
  · intro h
    rw [← h]
    exact Int32.toInt_le _
  · intro h
    have hlow := u.le_toInt
    have hmax : Int32.maxValue.toInt = 2147483647 := rfl
    have hsize : Int32.size = 4294967296 := rfl
    rw [Int32.toInt_add, Int32.toInt_ofNat', Int.add_bmod_bmod]
    apply Int.bmod_eq_of_le <;> omega

namespace Enumeration

variable {e : Enumeration}

/-- The value of the member at a position. -/
def valueAt? (e : Enumeration) (i : Nat) : Option Int32 := (e.memberValues.map (·.2))[i]?

/-- The member at the position has no initializer. -/
def Implicit (e : Enumeration) (i : Nat) : Prop :=
  ∃ m, e.members[i]? = some m ∧ m.initializer = none

/-- The member at the position is the first one of its name. -/
def position? (e : Enumeration) (name : String) : Option Nat :=
  e.members.findIdx? (·.name == name)

theorem valueAt?_explicit {i : Nat} {m : EnumMember} {v : Int32} (hm : e.members[i]? = some m)
    (hv : m.initializer = some v) : e.valueAt? i = some v := by
  obtain ⟨n, hvalue, -⟩ := values_of_member hm 0
  rw [hv] at hvalue
  exact hvalue

theorem valueAt?_first (h : e.Implicit 0) : e.valueAt? 0 = some 0 := by
  obtain ⟨m, hm, hnone⟩ := h
  obtain ⟨n, hvalue, hfirst, -⟩ := values_of_member hm 0
  rw [hnone, hfirst rfl] at hvalue
  exact hvalue

theorem valueAt?_implicit {i : Nat} (h : e.Implicit (i + 1)) :
    ∃ u, e.valueAt? i = some u ∧ e.valueAt? (i + 1) = some (u + 1) := by
  obtain ⟨m, hm, hnone⟩ := h
  obtain ⟨n, hvalue, -, hlater⟩ := values_of_member hm 0
  obtain ⟨u, hu, rfl⟩ := hlater i rfl
  rw [hnone] at hvalue
  exact ⟨u, hu, hvalue⟩

/-- Members without initializers count on from the one before them. -/
theorem valueAt?_run {i k : Nat} {u : Int32} (hu : e.valueAt? i = some u)
    (h : ∀ j, i < j → j ≤ i + k → e.Implicit j) :
    e.valueAt? (i + k) = some (u + Int32.ofNat k) := by
  induction k with
  | zero => simpa using hu
  | succ k ih =>
    have hbefore := ih fun j hj hk => h j hj (by omega)
    obtain ⟨w, hw, hnext⟩ := valueAt?_implicit (h (i + k + 1) (by omega) (by omega))
    cases hbefore.symm.trans hw
    rw [← Nat.add_assoc, hnext, Int32.add_assoc, Int32.ofNat_add]
    rfl

/-- How the members of an enum are counted. -/
structure Counts (e : Enumeration) : Prop where
  names : e.memberValues.map (·.1) = e.members.map (·.name)
  explicit (i : Nat) {m : EnumMember} {v : Int32} (hm : e.members[i]? = some m)
    (hv : m.initializer = some v) : e.valueAt? i = some v
  first (h : e.Implicit 0) : e.valueAt? 0 = some 0
  implicit (i : Nat) (h : e.Implicit (i + 1)) : ∃ u v, e.valueAt? i = some u ∧
    e.valueAt? (i + 1) = some v ∧ (v.toInt = u.toInt + 1 ↔ u ≠ Int32.maxValue) ∧
      (u = Int32.maxValue → v = Int32.minValue)
  run (i k : Nat) {u : Int32} (hu : e.valueAt? i = some u)
    (h : ∀ j, i < j → j ≤ i + k → e.Implicit j) : ∃ v, e.valueAt? (i + k) = some v ∧
      (v.toInt = u.toInt + k ↔ u.toInt + k ≤ Int32.maxValue.toInt)
  increasing (i k : Nat) {u : Int32} (hu : e.valueAt? i = some u)
    (h : ∀ j, i < j → j ≤ i + k → e.Implicit j) (hk : u.toInt + k ≤ Int32.maxValue.toInt)
    (j : Nat) (hj : j < k) {v w : Int32} (hv : e.valueAt? (i + j) = some v)
    (hw : e.valueAt? (i + k) = some w) : v < w

theorem counts (e : Enumeration) : e.Counts where
  names := names_memberValuesFrom 0 e.members
  explicit i _ _ := valueAt?_explicit
  first := valueAt?_first
  implicit i h := by
    obtain ⟨u, hu, hnext⟩ := valueAt?_implicit h
    refine ⟨u, u + 1, hu, hnext, ?_, ?_⟩
    · have hmax : Int32.maxValue.toInt = 2147483647 := rfl
      have hle := u.toInt_le
      have hne : u = Int32.maxValue ↔ u.toInt = Int32.maxValue.toInt := Int32.toInt_inj.symm
      have hsteps := toInt_add_steps u 1
      refine hsteps.trans ?_
      rw [ne_eq, hne]
      omega
    · rintro rfl
      rfl
  run i k u hu h := ⟨_, valueAt?_run hu h, toInt_add_steps u k⟩
  increasing i k u hu h hk j hj v w hv hw := by
    cases (valueAt?_run hu fun l hl hlj => h l hl (by omega)).symm.trans hv
    cases (valueAt?_run hu h).symm.trans hw
    rw [Int32.lt_iff_toInt_lt, (toInt_add_steps u k).mpr hk, (toInt_add_steps u j).mpr (by omega)]
    omega

/-! ## References -/

/-- What is found under a name belongs to the first entry of the name. -/
theorem lookup_eq_bind_findIdx? {β : Type} (x : String) (l : List (String × β)) :
    l.lookup x = ((l.map (·.1)).findIdx? (· == x)).bind fun i => (l.map (·.2))[i]? := by
  induction l with
  | nil => rfl
  | cons p l ih =>
    obtain ⟨n, v⟩ := p
    rw [List.map_cons, List.map_cons, List.findIdx?_cons]
    by_cases hn : n = x
    · subst hn
      rw [lookup_cons_self, if_pos (beq_self_eq_true n)]
      rfl
    · rw [lookup_cons_ne (Ne.symm hn), if_neg (by simpa using hn), ih, Option.bind_map]
      rfl

theorem lookup_memberValues (e : Enumeration) (member : String) :
    e.memberValues.lookup member = (e.position? member).bind e.valueAt? := by
  rw [lookup_eq_bind_findIdx?, memberValues, names_memberValuesFrom, List.findIdx?_map]
  rfl

end Enumeration

/-- A reference has a value when what is in front of its last dot stands for an enum with a member
of the name behind it, and then it is the value of the first such member. -/
theorem SymbolTable.enumMember_eq_ok_iff {t : SymbolTable} {reference : String} {v : Int32} :
    t.enumMember reference = .ok v ↔ ∃ enum member e i,
      splitLast reference = some (enum, member) ∧ t.lookup enum = some (.enumeration e) ∧
        e.position? member = some i ∧ e.valueAt? i = some v := by
  constructor
  · intro h
    unfold enumMember at h
    split at h
    · cases h
    · rename_i enum member hsplit
      split at h
      · rename_i e he
        split at h
        · rename_i w hw
          cases h
          rw [e.lookup_memberValues, Option.bind_eq_some_iff] at hw
          obtain ⟨i, hi, hv⟩ := hw
          exact ⟨enum, member, e, i, hsplit, he, hi, hv⟩
        · cases h
      · cases h
  · rintro ⟨enum, member, e, i, hsplit, he, hi, hv⟩
    have hlookup : e.memberValues.lookup member = some v := by
      rw [e.lookup_memberValues, hi, Option.bind_some, hv]
    rw [enumMember, hsplit]
    dsimp only
    rw [he]
    dsimp only
    rw [hlookup]

namespace Literal

variable {t : SymbolTable} {reference : String} {v : Int32}

/-- A reference to a member stands for the number of the member, unless it names a constant. -/
theorem lower_of_enumMember (hv : t.enumMember reference = .ok v)
    (hfree : ∀ k, t.lookup reference ≠ some (.constant k)) (field : String) (type : FieldType) :
    (Literal.identifier reference).lower t field type =
      lowerWithin ⟨t, field⟩ maxTypeDepth (.int (Int64.ofInt v.toInt)) type := by
  have hreferent : t.referent? reference = some (.int (Int64.ofInt v.toInt)) := by
    unfold SymbolTable.referent?
    split
    · rename_i k hk
      exact absurd hk (hfree k)
    · rw [hv]
  rw [lower, lowerWithin_reference]
  dsimp only
  rw [hreferent]

end Literal

/-! ## Scripts -/

namespace Script

/-- The line of a member with its value. -/
def enumRow (width : Nat) (name : String) (v : Int32) : String :=
  String.ofList (List.replicate width ' ') ++ name ++ " = " ++ toString v.toInt ++ ",\n"

def enumRows (width : Nat) (e : Enumeration) : List String :=
  e.memberValues.map fun (name, v) => enumRow width name v

/-- What a script shows of an enum. -/
def enumBlock (width : Nat) (e : Enumeration) : String :=
  "export enum " ++ e.name ++ " \x7b\n" ++ String.join (enumRows width e) ++ "\x7d\n"

theorem enumRows_first {e : Enumeration} {member : String} {i : Nat} {v : Int32}
    (hi : e.position? member = some i) (hv : e.valueAt? i = some v) (width : Nat) :
    (enumRows width e)[i]? = some (enumRow width member v) := by
  obtain ⟨hlt, hname, -⟩ := List.findIdx?_eq_some_iff_getElem.mp hi
  have hmember : ((memberValuesFrom 0 e.members).map (·.1))[i]? = some member := by
    rw [names_memberValuesFrom, List.getElem?_map, List.getElem?_eq_getElem hlt, Option.map_some,
      beq_iff_eq.mp hname]
  rw [List.getElem?_map, Option.map_eq_some_iff] at hmember
  obtain ⟨⟨_, w⟩, hat, rfl⟩ := hmember
  rw [Enumeration.valueAt?, List.getElem?_map, Enumeration.memberValues, hat] at hv
  cases hv
  rw [enumRows, List.getElem?_map, Enumeration.memberValues, hat]
  rfl

theorem layout_enumLines (width : Nat) (e : Enumeration) :
    layout width (enumLines e) = enumBlock width e := by
  have hline : ∀ p : String × Int32,
      (Piece.line (p.1 ++ " = " ++ toString p.2.toInt ++ ",")).text width 1 =
        enumRow width p.1 p.2 := by
    intro p
    simp [Piece.text, enumRow, String.append_assoc]
  rw [enumLines, layout_braced width _ (.map _ _), texts_lines]
  simp only [hline]
  rfl

/-- The lines of an enum stand outside of all blocks. -/
theorem bodyLines_split_enum {t : SymbolTable} {d : Document} {c : Compiled} {body : List Piece}
    (h : bodyLines t d c = .ok body) {e : Enumeration} (he : .enumeration e ∈ d.body) :
    ∃ earlier later, Nested earlier ∧ body = earlier ++ (enumLines e ++ later) := by
  obtain ⟨statements, hstatements, hbody⟩ := Steps.except_bind_eq_ok_iff.mp h
  cases hbody
  have hall := Steps.mapM_eq_ok_iff.mp hstatements
  obtain ⟨_, hmem, hpieces⟩ := Steps.forall₂_mem_left hall he
  cases hpieces
  obtain ⟨earlier, later, rfl⟩ := List.append_of_mem hmem
  have hearlier : Nested earlier.flatten := by
    refine .flatten fun pieces hpieces => ?_
    obtain ⟨st, -, hst⟩ := Steps.forall₂_mem_right hall (List.mem_append_left _ hpieces)
    exact nested_statementLines hst
  rw [List.flatten_append, List.flatten_cons]
  simp only [List.append_assoc]
  exact ⟨_, _, hearlier, rfl⟩

/-- The script of a document shows all of its enums. -/
theorem file_shows_enum {settings : Settings} {d : Document} {c : Compiled} {text : String}
    (h : file settings d c = .ok text) {e : Enumeration} (he : .enumeration e ∈ d.body) :
    ∃ before behind, text = before ++ enumBlock settings.indent e ++ behind := by
  unfold file at h
  split at h
  · cases h
  · obtain ⟨body, hbody, h⟩ := Steps.except_bind_eq_ok_iff.mp h
    cases h
    obtain ⟨earlier, later, hearlier, rfl⟩ := bodyLines_split_enum hbody he
    have henum : Nested (enumLines e) := .braced _ (.map _ _)
    refine ⟨header settings ++ "\n\n" ++ layout settings.indent earlier,
      layout settings.indent later, ?_⟩
    rw [layout_append _ hearlier, layout_append _ henum, layout_enumLines]
    simp only [String.append_assoc]

end Script

/-! ## All that tells the values -/

/-- An enum counts its members, without falling back as long as the values stay in the range. A
reference has the value of the first member of its name; a literal means this value, for an i32
and for all that is an enum in the end as it is, unless the reference names a constant; and the
script of a document with the enum shows it in the line of this member. -/
theorem Enumeration.values_counted (e : Enumeration) (t : SymbolTable) (reference : String)
    (v : Int32) :
    e.Counts ∧
    (t.enumMember reference = .ok v ↔ ∃ enum member e' i,
      splitLast reference = some (enum, member) ∧ t.lookup enum = some (.enumeration e') ∧
        e'.position? member = some i ∧ e'.valueAt? i = some v) ∧
    (∀ ds, SymbolTable.ofDocuments ds = .ok t → t.enumMember reference = .ok v →
      (∀ k, t.lookup reference ≠ some (.constant k)) → ∀ field type,
        (Literal.identifier reference).lower t field type =
            Literal.lowerWithin ⟨t, field⟩ maxTypeDepth (.int (Int64.ofInt v.toInt)) type ∧
          (type.HasForm t (.scalar .i32) →
            (Literal.identifier reference).lower t field type = .ok (.i32 v))) ∧
    ∀ settings d c text, Script.file settings d c = .ok text → .enumeration e ∈ d.body →
      (∃ before behind, text = before ++ Script.enumBlock settings.indent e ++ behind) ∧
        ∀ member i w, e.position? member = some i → e.valueAt? i = some w →
          (Script.enumRows settings.indent e)[i]? =
            some (Script.enumRow settings.indent member w) := by
  refine ⟨counts e, SymbolTable.enumMember_eq_ok_iff, ?_, ?_⟩
  · intro ds ht hv hfree field type
    obtain ⟨-, hnames, hacyclic⟩ := SymbolTable.ofDocuments_iff_acyclic.mp ht
    have hlower := Literal.lower_of_enumMember hv hfree field type
    refine ⟨hlower, fun htype => ?_⟩
    rw [hlower]
    exact Literal.lowerWithin_member hnames hacyclic htype v 62
  · intro settings d c text htext he
    exact ⟨Script.file_shows_enum htext he,
      fun member i w hi hw => Script.enumRows_first hi hw settings.indent⟩

/-- Pressures that count up to the largest value and beyond. -/
def pressure : Enumeration :=
  ⟨"Pressure", [⟨"LOW", none⟩, ⟨"HIGH", some 2147483645⟩, ⟨"PEAK", none⟩, ⟨"TOP", none⟩,
    ⟨"OVER", none⟩]⟩

def meters : Document := ⟨[.enumeration pressure]⟩

theorem Enumeration.values_counted_pressure :
    (pressure.valueAt? 1 = some 2147483645 ∧ (∀ j, 1 < j → j ≤ 1 + 2 → pressure.Implicit j) ∧
      ∃ v, pressure.valueAt? 3 = some v ∧ v.toInt = 2147483645 + 2) ∧
    ∃ t text, SymbolTable.ofDocuments [meters] = .ok t ∧
      Script.file ⟨"thrift", 2⟩ meters ⟨[], []⟩ = .ok text ∧
      t.enumMember "Pressure.TOP" = .ok 2147483647 ∧
      (Literal.identifier "Pressure.TOP").lower t "pressure" (.identifier "Pressure") =
        .ok (.i32 2147483647) ∧
      ∃ before behind, text = before ++ Script.enumBlock 2 pressure ++ behind := by
  obtain ⟨hcounts, hmember, hliteral, hscript⟩ :=
    values_counted pressure (SymbolTable.merged [meters]) "Pressure.TOP" 2147483647
  have himplicit : ∀ j, 1 < j → j ≤ 1 + 2 → pressure.Implicit j := by
    intro j hj hk
    have : j = 2 ∨ j = 3 := by omega
    rcases this with rfl | rfl <;> exact ⟨_, rfl, rfl⟩
  obtain ⟨v, hv, hexact⟩ := hcounts.run 1 2 (u := 2147483645) rfl himplicit
  refine ⟨⟨rfl, himplicit, v, hv, hexact.mpr (by decide)⟩, ?_⟩
  obtain ⟨text, htext⟩ :
      ∃ text, Script.file ⟨"thrift", 2⟩ meters ⟨[], []⟩ = .ok text := ⟨_, rfl⟩
  have ht : SymbolTable.ofDocuments [meters] = .ok (SymbolTable.merged [meters]) := rfl
  have htop : (SymbolTable.merged [meters]).enumMember "Pressure.TOP" = .ok 2147483647 :=
    hmember.mpr ⟨"Pressure", "TOP", pressure, 3, rfl, rfl, rfl, rfl⟩
  refine ⟨_, text, ht, htext, htop, ?_, (hscript _ _ _ _ htext List.mem_cons_self).1⟩
  exact (hliteral _ ht htop (by rintro k ⟨⟩) "pressure" (.identifier "Pressure")).2
    (.enumeration (d := pressure) rfl)

/-- Behind the largest value the count falls to the smallest one, which references, literals and
scripts tell as well. -/
theorem Enumeration.pressure_falls :
    pressure.Implicit 4 ∧ pressure.valueAt? 3 = some Int32.maxValue ∧
      pressure.valueAt? 4 = some Int32.minValue ∧
      Int32.minValue.toInt ≠ Int32.maxValue.toInt + 1 ∧
      ∃ t, SymbolTable.ofDocuments [meters] = .ok t ∧
        t.enumMember "Pressure.OVER" = .ok Int32.minValue ∧
        (Literal.identifier "Pressure.OVER").lower t "pressure" (.identifier "Pressure") =
          .ok (.i32 Int32.minValue) ∧
        (Script.enumRows 2 pressure)[4]? = some "  OVER = -2147483648,\n" :=
  ⟨⟨_, rfl, rfl⟩, rfl, rfl, by decide, _, rfl, rfl, rfl, by decide +kernel⟩

end Thrift
