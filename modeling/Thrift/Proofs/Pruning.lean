-- Leaving fields out. A schema that lacks some members builds the same instances as the whole one,
-- but for the values of those members, at every depth. Neither side needs distinct names: members
-- that share a name are left out together.
import Mathlib.Data.String.Basic
import Thrift.Proofs.DecodeRefines

namespace Thrift

/-- Which fields are left out, by the names of their struct and their own. -/
abbrev Omission := String → String → Bool

/-! ## Values -/

namespace Value

mutual

/-- The value without the fields that are left out, at any depth. -/
def without (o : Omission) : Value → Value
  | list items => list (itemsWithout o items)
  | set items => set (itemsWithout o items)
  | map entries => map (entriesWithout o entries)
  | struct name fields => struct name (fieldsWithout o name fields)
  | v => v

def itemsWithout (o : Omission) : List Value → List Value
  | [] => []
  | v :: vs => v.without o :: itemsWithout o vs

def entriesWithout (o : Omission) : List (Value × Value) → List (Value × Value)
  | [] => []
  | (k, v) :: es => (k.without o, v.without o) :: entriesWithout o es

/-- The fields of an instance of the struct. -/
def fieldsWithout (o : Omission) (struct : String) : List (String × Value) → List (String × Value)
  | [] => []
  | (n, v) :: rest =>
    if o struct n then fieldsWithout o struct rest
    else (n, v.without o) :: fieldsWithout o struct rest

end

variable {o : Omission} {struct name : String}

theorem itemsWithout_eq_self {vs : List Value} (h : ∀ v ∈ vs, v.without o = v) :
    itemsWithout o vs = vs := by
  induction vs with
  | nil => rw [itemsWithout]
  | cons v vs ih =>
    obtain ⟨hv, hvs⟩ := List.forall_mem_cons.mp h
    rw [itemsWithout, hv, ih hvs]

theorem entriesWithout_eq_self {es : List (Value × Value)}
    (h : ∀ e ∈ es, e.1.without o = e.1 ∧ e.2.without o = e.2) : entriesWithout o es = es := by
  induction es with
  | nil => rw [entriesWithout]
  | cons e es ih =>
    obtain ⟨⟨hk, hv⟩, hes⟩ := List.forall_mem_cons.mp h
    rw [entriesWithout, hk, hv, ih hes]

theorem mem_fieldsWithout {fields : List (String × Value)} {e : String × Value}
    (h : e ∈ fieldsWithout o struct fields) : ∃ w, (e.1, w) ∈ fields := by
  induction fields with
  | nil => simp [fieldsWithout] at h
  | cons p fields ih =>
    obtain ⟨n, v⟩ := p
    rw [fieldsWithout] at h
    split at h
    · obtain ⟨w, hw⟩ := ih h
      exact ⟨w, List.mem_cons_of_mem _ hw⟩
    · rcases List.mem_cons.mp h with rfl | h
      · exact ⟨v, List.mem_cons_self⟩
      · obtain ⟨w, hw⟩ := ih h
        exact ⟨w, List.mem_cons_of_mem _ hw⟩

theorem lookup_fieldsWithout (h : o struct name = false) (fields : List (String × Value)) :
    (fieldsWithout o struct fields).lookup name = (fields.lookup name).map (without o) := by
  induction fields with
  | nil => simp [fieldsWithout]
  | cons p fields ih =>
    obtain ⟨n, v⟩ := p
    rw [fieldsWithout]
    by_cases hn : name = n
    · subst hn
      simp [h]
    · rw [lookup_cons_ne hn]
      split
      · exact ih
      · rw [lookup_cons_ne hn, ih]

/-- Erasing a field that is left out changes nothing. -/
theorem fieldsWithout_erase_of_omitted (h : o struct name = true) (fields : List (String × Value)) :
    fieldsWithout o struct (Fields.erase name fields) = fieldsWithout o struct fields := by
  induction fields with
  | nil => rfl
  | cons p fields ih =>
    obtain ⟨n, v⟩ := p
    unfold Fields.erase at ih ⊢
    by_cases hn : n = name
    · subst hn
      rw [List.filter_cons_of_neg (by simp), ih, fieldsWithout, if_pos h]
    · rw [List.filter_cons_of_pos (by simpa using hn), fieldsWithout, fieldsWithout, ih]

theorem fieldsWithout_erase (name : String) (fields : List (String × Value)) :
    fieldsWithout o struct (Fields.erase name fields) =
      Fields.erase name (fieldsWithout o struct fields) := by
  induction fields with
  | nil => rfl
  | cons p fields ih =>
    obtain ⟨n, v⟩ := p
    unfold Fields.erase at ih ⊢
    by_cases hn : n = name
    · subst hn
      rw [List.filter_cons_of_neg (by simp), ih, fieldsWithout]
      split
      · rfl
      · rw [List.filter_cons_of_neg (by simp)]
    · rw [List.filter_cons_of_pos (by simpa using hn), fieldsWithout, fieldsWithout, ih]
      split
      · rfl
      · rw [List.filter_cons_of_pos (by simpa using hn)]

/-- Inserting a field that is left out changes nothing. -/
theorem fieldsWithout_insert_of_omitted (h : o struct name = true) (v : Value)
    (fields : List (String × Value)) :
    fieldsWithout o struct (Fields.insert name v fields) = fieldsWithout o struct fields := by
  induction fields with
  | nil => simp [Fields.insert, fieldsWithout, h]
  | cons p fields ih =>
    obtain ⟨n, w⟩ := p
    rw [Fields.insert]
    split
    · rw [fieldsWithout, if_pos h]
    · split
      · rename_i hn
        subst hn
        rw [fieldsWithout, fieldsWithout, if_pos h, if_pos h]
      · rw [fieldsWithout, fieldsWithout, ih]

end Value

/-! ## Sorted fields -/

namespace Fields

/-- The names are in order, each one once. -/
def Sorted (fields : List (String × Value)) : Prop := fields.Pairwise fun a b => a.1 < b.1

theorem insert_of_lt {name : String} {fields : List (String × Value)} (v : Value)
    (h : ∀ e ∈ fields, name < e.1) : insert name v fields = (name, v) :: fields := by
  cases fields with
  | nil => rfl
  | cons p fields =>
    have hp := h p List.mem_cons_self
    rw [insert, if_pos hp]

theorem mem_insert {name : String} {v : Value} {fields : List (String × Value)}
    {e : String × Value} (h : e ∈ insert name v fields) : e = (name, v) ∨ e ∈ fields := by
  induction fields with
  | nil => exact .inl (List.mem_singleton.mp h)
  | cons p fields ih =>
    obtain ⟨n, w⟩ := p
    rw [insert] at h
    split at h
    · exact List.mem_cons.mp h
    · split at h
      · exact (List.mem_cons.mp h).imp id (List.mem_cons_of_mem _)
      · rcases List.mem_cons.mp h with rfl | h
        · exact .inr List.mem_cons_self
        · exact (ih h).imp id (List.mem_cons_of_mem _)

theorem Sorted.insert {fields : List (String × Value)} (h : Sorted fields) (name : String)
    (v : Value) : Sorted (insert name v fields) := by
  induction fields with
  | nil => exact List.pairwise_singleton _ _
  | cons p fields ih =>
    obtain ⟨n, w⟩ := p
    obtain ⟨hfirst, hrest⟩ := List.pairwise_cons.mp h
    rw [Fields.insert]
    split
    · rename_i hlt
      refine List.pairwise_cons.mpr ⟨fun e he => ?_, h⟩
      rcases List.mem_cons.mp he with rfl | he
      · exact hlt
      · exact lt_trans hlt (hfirst e he)
    · rename_i hlt
      split
      · rename_i hn
        subst hn
        exact List.pairwise_cons.mpr ⟨hfirst, hrest⟩
      · rename_i hn
        refine List.pairwise_cons.mpr ⟨fun e he => ?_, ih hrest⟩
        rcases mem_insert he with rfl | he
        · exact lt_of_le_of_ne (not_lt.mp hlt) (Ne.symm hn)
        · exact hfirst e he

end Fields

/-- A field that is kept is inserted at its place, whether others are left out before or after. -/
theorem Value.fieldsWithout_insert {o : Omission} {struct name : String}
    (h : o struct name = false) (v : Value) {fields : List (String × Value)}
    (hs : Fields.Sorted fields) :
    fieldsWithout o struct (Fields.insert name v fields) =
      Fields.insert name (v.without o) (fieldsWithout o struct fields) := by
  induction fields with
  | nil => simp [Fields.insert, fieldsWithout, h]
  | cons p fields ih =>
    obtain ⟨n, w⟩ := p
    obtain ⟨hfirst, hrest⟩ := List.pairwise_cons.mp hs
    rw [Fields.insert]
    split
    · rename_i hlt
      have hbelow : ∀ e ∈ fieldsWithout o struct ((n, w) :: fields), name < e.1 := by
        intro e he
        obtain ⟨u, hu⟩ := mem_fieldsWithout he
        rcases List.mem_cons.mp hu with heq | hu
        · cases heq
          exact hlt
        · have hn := hfirst (e.1, u) hu
          exact lt_trans hlt hn
      rw [Fields.insert_of_lt _ hbelow, fieldsWithout, h, if_neg Bool.false_ne_true]
    · rename_i hlt
      split
      · rename_i hn
        subst hn
        simp [fieldsWithout, h, Fields.insert]
      · rename_i hn
        rw [fieldsWithout, fieldsWithout, ih hrest]
        split
        · rfl
        · rw [Fields.insert, if_neg hlt, if_neg hn]

/-! ## Records -/

/-- The instance without the fields that are left out. -/
def StructValue.without (o : Omission) (v : StructValue) : StructValue :=
  ⟨v.name, Value.fieldsWithout o v.name v.fields⟩

theorem StructValue.toValue_without (o : Omission) (v : StructValue) :
    (v.without o).toValue = v.toValue.without o := by
  rw [toValue, toValue, Value.without, without]

/-- The member with nothing left out kept in its default. -/
def Member.without (o : Omission) (m : Member) : Member :=
  { m with default := m.default.map (Value.without o) }

/-- The record without the members that are left out. -/
def Record.without (o : Omission) (r : Record) : Record :=
  { r with members := (r.members.filter fun m => !o r.name m.name).map (Member.without o) }

def Schema.without (o : Omission) (s : Schema) : Schema := ⟨s.records.map (Record.without o)⟩

theorem Schema.record?_without (o : Omission) (s : Schema) (name : String) :
    (s.without o).record? name = (s.record? name).map (Record.without o) := List.find?_map ..

/-- Of the members that are sent, those are kept that are not left out. -/
theorem Record.sent_without (o : Omission) (r : Record) :
    (r.without o).sent = (r.sent.filter fun m => !o r.name m.name).map (Member.without o) := by
  unfold sent without
  dsimp only
  rw [List.filter_map, List.filter_filter, List.filter_filter]
  congr 1
  apply List.filter_congr
  intro m _
  exact Bool.and_comm _ _

namespace Machine

variable {o : Omission} {struct : String}

/-- Filling without what is left out. The fields that are set so far are sorted, or else a field
could take another place once those before it are gone. -/
theorem fill_without (ms : List Member) {set : List (String × Value)} (hs : Fields.Sorted set)
    (left : List (String × Value)) :
    Value.fieldsWithout o struct (fill (ms.map Member.toInit) set left) =
      fill (((ms.filter fun m => !o struct m.name).map (Member.without o)).map Member.toInit)
        (Value.fieldsWithout o struct set) (Value.fieldsWithout o struct left) := by
  induction ms generalizing set left with
  | nil => rfl
  | cons m ms ih =>
    have hname : m.toInit.name = m.name := rfl
    rw [List.map_cons, fill, hname]
    by_cases homit : o struct m.name = true
    · rw [List.filter_cons_of_neg (by simp [homit])]
      split
      · rw [ih (hs.insert _ _), Value.fieldsWithout_insert_of_omitted homit,
          Value.fieldsWithout_erase_of_omitted homit]
      · rw [ih (hs.insert _ _), Value.fieldsWithout_insert_of_omitted homit]
      · exact ih hs left
    · have hkept : o struct m.name = false := by simpa using homit
      have hname' : (m.without o).toInit.name = m.name := rfl
      have hdefault : (m.without o).toInit.default = m.toInit.default.map (Value.without o) := rfl
      rw [List.filter_cons_of_pos (by simp [hkept]), List.map_cons, List.map_cons, fill, hname',
        hdefault, Value.lookup_fieldsWithout hkept]
      rcases left.lookup m.name with _ | v
      · rcases m.toInit.default with _ | v
        · exact ih hs left
        · dsimp only [Option.map_none, Option.map_some]
          rw [ih (hs.insert _ _), Value.fieldsWithout_insert hkept v hs]
      · dsimp only [Option.map_some]
        rw [ih (hs.insert _ _), Value.fieldsWithout_insert hkept v hs, Value.fieldsWithout_erase]

end Machine

namespace Record

/-- Where the whole record builds an instance of what was found, the record with members left out
builds the instance without them of what is left of that, unless it is a union that has lost what
was found. -/
theorem built_without {o : Omission} {r : Record} {found : List (String × Value)} {v : StructValue}
    (hu : r.kind = .union → ∀ m ∈ r.sent, o r.name m.name = true → found.lookup m.name = none)
    (h : r.built found = .ok v) :
    (r.without o).built (Value.fieldsWithout o r.name found) = .ok (v.without o) := by
  obtain ⟨hset, hone, rfl⟩ := built_eq_ok_iff.mp h
  have hkept : ∀ m : Member, o r.name m.name = false →
      ((Value.fieldsWithout o r.name found).lookup m.name).isSome =
        (found.lookup m.name).isSome := by
    intro m hm
    rw [Value.lookup_fieldsWithout hm, Option.isSome_map]
  apply built_eq_ok_iff.mpr
  rw [sent_without]
  refine ⟨?_, fun hkind => ?_, ?_⟩
  · simp only [List.mem_map, List.mem_filter, forall_exists_index, and_imp]
    rintro f m hm homit rfl hrequired
    exact (hkept m (by simpa using homit)).trans (hset m hm hrequired)
  · rw [List.countP_map, List.countP_filter, ← hone hkind]
    apply List.countP_congr
    intro m hm
    rw [Bool.and_eq_true, Bool.not_eq_true']
    rcases homit : o r.name m.name with _ | _
    · rw [and_iff_left rfl]
      exact Eq.congr_left (hkept m homit)
    · simp [hu hkind m hm homit]
  · rw [StructValue.without, Machine.filled_eq_fill, Machine.filled_eq_fill,
      Machine.fill_without r.sent List.Pairwise.nil found]
    rfl

end Record

end Thrift
