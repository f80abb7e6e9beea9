-- Lists of values under names. What a name stands for depends on the first entry of the name
-- only, so adding and dropping entries of other names changes nothing, and where names differ
-- every entry is found.
import Thrift.Value.Basic

namespace Thrift

variable {β : Type}

theorem lookup_filter_ne {x y : String} (h : y ≠ x) (l : List (String × β)) :
    (l.filter (·.1 != x)).lookup y = l.lookup y := by
  induction l with
  | nil => rfl
  | cons p l ih =>
    obtain ⟨n, v⟩ := p
    by_cases hn : n = x
    · subst hn
      rw [List.filter_cons_of_neg (by simp), List.lookup_cons, beq_false_of_ne h]
      exact ih
    · rw [List.filter_cons_of_pos (by simpa using hn), List.lookup_cons, List.lookup_cons, ih]

theorem lookup_filter_self (x : String) (l : List (String × β)) :
    (l.filter (·.1 != x)).lookup x = none := by
  induction l with
  | nil => rfl
  | cons p l ih =>
    obtain ⟨n, v⟩ := p
    by_cases hn : n = x
    · subst hn
      rw [List.filter_cons_of_neg (by simp)]
      exact ih
    · rw [List.filter_cons_of_pos (by simpa using hn), List.lookup_cons,
        beq_false_of_ne (Ne.symm hn)]
      exact ih

theorem lookup_cons_self (x : String) (v : β) (l : List (String × β)) :
    List.lookup x ((x, v) :: l) = some v := by
  rw [List.lookup_cons, beq_self_eq_true]

theorem lookup_cons_ne {x y : String} (h : y ≠ x) (v : β) (l : List (String × β)) :
    List.lookup y ((x, v) :: l) = l.lookup y := by
  rw [List.lookup_cons, beq_false_of_ne h]

theorem mem_of_lookup {κ : Type} [BEq κ] [LawfulBEq κ] {x : κ} {v : β} {l : List (κ × β)}
    (h : l.lookup x = some v) : (x, v) ∈ l := by
  obtain ⟨before, behind, rfl, -⟩ := List.lookup_eq_some_iff.mp h
  exact List.mem_append_right before List.mem_cons_self

/-- Where keys differ, a member is found under its key. -/
theorem find?_of_nodup {α κ : Type} [BEq κ] [LawfulBEq κ] {key : α → κ} {as : List α}
    (h : (as.map key).Nodup) {a : α} (ha : a ∈ as) : as.find? (key · == key a) = some a := by
  induction as with
  | nil => cases ha
  | cons b as ih =>
    obtain ⟨hnew, has⟩ := List.nodup_cons.mp h
    rcases List.mem_cons.mp ha with rfl | ha
    · exact List.find?_cons_of_pos (beq_self_eq_true _)
    · have hne : key b ≠ key a := fun heq => hnew (List.mem_map.mpr ⟨a, ha, heq.symm⟩)
      rw [List.find?_cons_of_neg (by simpa using hne)]
      exact ih has ha

/-- Where keys differ, no other member has the key of a member. -/
theorem filter_of_nodup {α κ : Type} [BEq κ] [LawfulBEq κ] {key : α → κ} {as : List α}
    (h : (as.map key).Nodup) {a : α} (ha : a ∈ as) : as.filter (key · == key a) = [a] := by
  induction as with
  | nil => cases ha
  | cons b as ih =>
    obtain ⟨hnew, has⟩ := List.nodup_cons.mp h
    rcases List.mem_cons.mp ha with rfl | ha
    · have hnone : as.filter (key · == key a) = [] := by
        refine List.filter_eq_nil_iff.mpr fun b hb heq => hnew ?_
        exact List.mem_map.mpr ⟨b, hb, beq_iff_eq.mp heq⟩
      rw [List.filter_cons_of_pos (by simp), hnone]
    · have hne : key b ≠ key a := fun heq => hnew (List.mem_map.mpr ⟨a, ha, heq.symm⟩)
      rw [List.filter_cons_of_neg (by simpa using hne)]
      exact ih has ha

/-- Where keys differ, the order of the members does not matter. -/
theorem find?_perm {α κ : Type} [BEq κ] [LawfulBEq κ] {key : α → κ} {as bs : List α}
    (h : as.Perm bs) (hkeys : (as.map key).Nodup) (k : κ) :
    as.find? (key · == k) = bs.find? (key · == k) := by
  rcases hfound : as.find? (key · == k) with _ | a
  · rw [eq_comm, List.find?_eq_none]
    intro b hb
    exact List.find?_eq_none.mp hfound b (h.mem_iff.mpr hb)
  · have hkey : key a = k := by
      have hmatch := List.find?_some hfound
      exact beq_iff_eq.mp hmatch
    subst hkey
    have ha : a ∈ bs := h.mem_iff.mp (List.mem_of_find?_eq_some hfound)
    exact (find?_of_nodup ((h.map key).nodup_iff.mp hkeys) ha).symm

namespace Fields

theorem lookup_insert_self (x : String) (v : Value) (l : List (String × Value)) :
    (insert x v l).lookup x = some v := by
  induction l with
  | nil => exact lookup_cons_self x v []
  | cons p l ih =>
    obtain ⟨n, w⟩ := p
    rw [insert]
    split
    · exact lookup_cons_self x v _
    · split
      · exact lookup_cons_self x v l
      · rw [lookup_cons_ne ‹_›, ih]

theorem lookup_insert_ne {x y : String} (h : y ≠ x) (v : Value) (l : List (String × Value)) :
    (insert x v l).lookup y = l.lookup y := by
  induction l with
  | nil => exact lookup_cons_ne h v []
  | cons p l ih =>
    obtain ⟨n, w⟩ := p
    rw [insert]
    split
    · exact lookup_cons_ne h v _
    · split
      · rename_i hn
        subst hn
        rw [lookup_cons_ne h, lookup_cons_ne h]
      · rw [List.lookup_cons, List.lookup_cons, ih]

theorem lookup_erase_self (x : String) (l : List (String × Value)) :
    (erase x l).lookup x = none := lookup_filter_self x l

theorem lookup_erase_ne {x y : String} (h : y ≠ x) (l : List (String × Value)) :
    (erase x l).lookup y = l.lookup y := lookup_filter_ne h l

end Fields

end Thrift
