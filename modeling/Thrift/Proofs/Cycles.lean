-- Cycles of typedefs. A typedef leads to another one when its type mentions it, at any depth. The
-- walk over the typedefs of a table finds a cycle exactly when one of them leads back to itself,
-- and where none does every typedef can be followed to its end.
import Mathlib.Data.List.Nodup
import Mathlib.Data.List.Perm.Subperm
import Mathlib.Logic.Relation
import Thrift.Proofs.Typedefs

namespace Thrift

open Relation (ReflTransGen TransGen)

/-! ## The graph of typedefs -/

/-- An identifier stands in a type, at any depth of its containers. -/
inductive FieldType.Mentions : FieldType → String → Prop
  | identifier {name : String} : Mentions (.identifier name) name
  | list {element : FieldType} {name : String} (h : Mentions element name) :
      Mentions (.list element) name
  | set {element : FieldType} {name : String} (h : Mentions element name) :
      Mentions (.set element) name
  | key {key value : FieldType} {name : String} (h : Mentions key name) :
      Mentions (.map key value) name
  | value {key value : FieldType} {name : String} (h : Mentions value name) :
      Mentions (.map key value) name

theorem FieldType.mem_mentions_iff {type : FieldType} {name : String} :
    name ∈ type.mentions ↔ type.Mentions name := by
  constructor
  · intro h
    induction type with
    | identifier n =>
      cases List.mem_singleton.mp h
      exact .identifier
    | list element ih => exact .list (ih h)
    | set element ih => exact .set (ih h)
    | map key value ihk ihv =>
      rcases List.mem_append.mp h with h | h
      · exact .key (ihk h)
      · exact .value (ihv h)
    | _ => cases h
  · intro h
    induction h with
    | identifier => exact List.mem_singleton_self _
    | list _ ih => exact ih
    | set _ ih => exact ih
    | key _ ih => exact List.mem_append_left _ ih
    | value _ ih => exact List.mem_append_right _ ih

namespace SymbolTable

/-- The type of the first typedef mentions the second one, by its name or behind a qualifier. -/
def Leads (t : SymbolTable) (a b : Typedef) : Prop :=
  ∃ name, a.type.Mentions name ∧ t.lookup name = some (.typedef b)

/-- No typedef leads back to itself, over however many others. -/
def Acyclic (t : SymbolTable) : Prop :=
  ∀ d, .typedef d ∈ t.definitions → ¬ TransGen t.Leads d d

/-- Everything that several documents define, whether or not names come twice. -/
def merged (ds : List Document) : SymbolTable :=
  ⟨ds.flatMap (·.body.filterMap (·.definition?))⟩

variable {t : SymbolTable} {levels : Nat} {path : List String} {a b d here next : Typedef}

theorem Leads.mem (h : t.Leads a b) : .typedef b ∈ t.definitions := by
  obtain ⟨name, -, hlookup⟩ := h
  exact mem_of_lookup hlookup

/-- Where names differ, a typedef is known by its name. -/
theorem typedef_eq_of_name (hnames : t.names.Nodup) (ha : .typedef a ∈ t.definitions)
    (hb : .typedef b ∈ t.definitions) (h : a.name = b.name) : a = b := by
  cases List.inj_on_of_nodup_map hnames ha hb h
  rfl

/-! ## Walks -/

/-- Different names of definitions are no more than there are definitions. -/
theorem length_le_size {names : List String} (hnames : names.Nodup)
    (h : ∀ n ∈ names, n ∈ t.names) : names.length ≤ t.size := by
  have hle := (hnames.subperm h).length_le
  rwa [SymbolTable.names, List.length_map] at hle

/-- A walk along the graph. The names on its path differ, and each is that of a typedef that leads
to the one where the walk stands. So many levels are left to the walk. -/
structure Walk (t : SymbolTable) (levels : Nat) (path : List String) (here : Typedef) : Prop where
  nodup : path.Nodup
  levels_eq : levels + path.length = t.size + 2
  origin : ∀ n ∈ path, ∃ a, .typedef a ∈ t.definitions ∧ a.name = n ∧ ReflTransGen t.Leads a here

namespace Walk

theorem start (hd : .typedef d ∈ t.definitions) : t.Walk (t.size + 1) [d.name] d := by
  refine ⟨List.nodup_singleton _, rfl, fun n hn => ⟨d, hd, ?_, .refl⟩⟩
  exact (List.mem_singleton.mp hn).symm

theorem step (h : t.Walk (levels + 1) path here) (hnext : t.Leads here next)
    (hnew : next.name ∉ path) : t.Walk levels (next.name :: path) next := by
  refine ⟨List.nodup_cons.mpr ⟨hnew, h.nodup⟩, ?_, fun n hn => ?_⟩
  · have hlevels := h.levels_eq
    rw [List.length_cons]
    omega
  · rcases List.mem_cons.mp hn with rfl | hn
    · exact ⟨next, hnext.mem, rfl, .refl⟩
    · obtain ⟨a, ha, hname, hleads⟩ := h.origin n hn
      exact ⟨a, ha, hname, hleads.tail hnext⟩

/-- A walk never runs out of levels. -/
theorem exists_succ (h : t.Walk levels path here) : ∃ l, levels = l + 1 := by
  have hlength : path.length ≤ t.size := by
    refine length_le_size h.nodup fun n hn => ?_
    obtain ⟨a, ha, hname, -⟩ := h.origin n hn
    exact List.mem_map.mpr ⟨_, ha, hname⟩
  have hlevels := h.levels_eq
  exact ⟨levels - 1, by omega⟩

/-- Where no typedef leads back to itself, a walk never comes to a name of its path. -/
theorem not_mem (h : t.Walk levels path here) (hnames : t.names.Nodup) (hacyclic : t.Acyclic)
    (hnext : t.Leads here next) : next.name ∉ path := by
  intro hmem
  obtain ⟨a, ha, hname, hleads⟩ := h.origin _ hmem
  cases typedef_eq_of_name hnames ha hnext.mem hname
  exact hacyclic next hnext.mem (.tail' hleads hnext)

end Walk

/-! ## Cycles -/

/-- Nothing is found below a typedef when nothing is found below those it leads to, and none of them
is on the path. -/
theorem cycleBelow_eq_none_iff : t.cycleBelow (levels + 1) path here.type = none ↔
    ∀ next, t.Leads here next →
      next.name ∉ path ∧ t.cycleBelow levels (next.name :: path) next.type = none := by
  rw [cycleBelow, List.findSome?_eq_none_iff]
  constructor
  · rintro h next ⟨name, hmentions, hlookup⟩
    have hname := h name (FieldType.mem_mentions_iff.mpr hmentions)
    rw [typedef?_eq_some_iff.mpr hlookup] at hname
    dsimp only at hname
    split at hname
    · cases hname
    · exact ⟨‹_›, hname⟩
  · intro h name hname
    rcases hd : t.typedef? name with _ | next
    · rfl
    · have hleads : t.Leads here next :=
        ⟨name, FieldType.mem_mentions_iff.mp hname, typedef?_eq_some_iff.mp hd⟩
      obtain ⟨hnew, hnone⟩ := h next hleads
      dsimp only
      rw [if_neg hnew, hnone]

theorem cycle?_eq_none_iff_below : t.cycle? = none ↔
    ∀ d, .typedef d ∈ t.definitions → t.cycleBelow (t.size + 1) [d.name] d.type = none := by
  rw [cycle?, List.findSome?_eq_none_iff]
  constructor
  · intro h d hd
    exact h _ hd
  · intro h x hx
    cases x with
    | typedef d => exact h d hx
    | _ => rfl

/-- A walk that finds no cycle comes to no name of its path, however far it goes. -/
theorem Walk.clear (h : t.Walk levels path here)
    (hnone : t.cycleBelow levels path here.type = none) (hfar : TransGen t.Leads here b) :
    b.name ∉ path := by
  induction hfar using TransGen.head_induction_on generalizing levels path with
  | single hlast =>
    obtain ⟨l, rfl⟩ := h.exists_succ
    exact (cycleBelow_eq_none_iff.mp hnone b hlast).1
  | head hfirst _ ih =>
    obtain ⟨l, rfl⟩ := h.exists_succ
    obtain ⟨hnew, hrest⟩ := cycleBelow_eq_none_iff.mp hnone _ hfirst
    intro hmem
    exact ih (h.step hfirst hnew) hrest (List.mem_cons_of_mem _ hmem)

theorem Walk.cycleBelow_eq_none (h : t.Walk levels path here) (hnames : t.names.Nodup)
    (hacyclic : t.Acyclic) : t.cycleBelow levels path here.type = none := by
  induction levels generalizing path here with
  | zero => rfl
  | succ levels ih =>
    refine cycleBelow_eq_none_iff.mpr fun next hnext => ?_
    have hnew := h.not_mem hnames hacyclic hnext
    exact ⟨hnew, ih (h.step hnext hnew)⟩

/-- Where names differ, a cycle is found exactly when a typedef leads back to itself. -/
theorem cycle?_eq_none_iff (hnames : t.names.Nodup) : t.cycle? = none ↔ t.Acyclic := by
  rw [cycle?_eq_none_iff_below]
  constructor
  · intro h d hd hback
    exact (Walk.start hd).clear (h d hd) hback (List.mem_singleton_self _)
  · intro h d hd
    exact (Walk.start hd).cycleBelow_eq_none hnames h

/-! ## Following -/

theorem Walk.follow_succeeds (h : t.Walk levels path here) (hnames : t.names.Nodup)
    (hacyclic : t.Acyclic) : ∃ u, t.follow levels path here.type = .ok u := by
  induction levels generalizing path here with
  | zero =>
    obtain ⟨l, hl⟩ := h.exists_succ
    cases hl
  | succ levels ih =>
    unfold follow
    split
    · rename_i name htype
      rcases hd : t.typedef? name with _ | next
      · exact ⟨_, rfl⟩
      · have hnext : t.Leads here next :=
          ⟨name, htype ▸ .identifier, typedef?_eq_some_iff.mp hd⟩
        have hnew := h.not_mem hnames hacyclic hnext
        dsimp only
        rw [if_neg hnew]
        exact ih (h.step hnext hnew)
    · exact ⟨_, rfl⟩

/-- Where no typedef leads back to itself, each stands for a type that is no typedef. -/
theorem underlying_succeeds (hnames : t.names.Nodup) (hacyclic : t.Acyclic)
    (hd : .typedef d ∈ t.definitions) : ∃ u, t.underlying d = .ok u ∧ t.Final u := by
  obtain ⟨u, hu⟩ := (Walk.start hd).follow_succeeds hnames hacyclic
  exact ⟨u, hu, final_of_follow hu⟩

theorem resolve_of_typedef {name : String} {u : FieldType}
    (hlookup : t.lookup name = some (.typedef d)) (hu : t.underlying d = .ok u) :
    t.resolve name = .ok (.typedef d u) := by
  rw [resolve, hlookup]
  dsimp only
  rw [hu]
  rfl

/-- Only typedefs can fail to be resolved because of a cycle. -/
theorem lookup_of_resolve_cycle {name : String} {chain : List String}
    (h : t.resolve name = .error (.typedefCycle chain)) :
    ∃ d, t.lookup name = some (.typedef d) ∧ t.underlying d = .error (.typedefCycle chain) := by
  unfold resolve at h
  split at h
  · cases h
  · cases h
  · cases h
  · rename_i d hlookup
    refine ⟨d, hlookup, ?_⟩
    rcases hu : t.underlying d with cause | u
    · rw [hu] at h
      cases h
      rfl
    · rw [hu] at h
      cases h
  · cases h
  · cases h

/-! ## Documents -/

theorem ofDocuments_iff_acyclic {ds : List Document} :
    ofDocuments ds = .ok t ↔ t = merged ds ∧ t.names.Nodup ∧ t.Acyclic := by
  have heq : t.definitions = ds.flatMap (·.body.filterMap (·.definition?)) ↔ t = merged ds := by
    constructor
    · rintro h
      cases t
      cases h
      rfl
    · rintro rfl
      rfl
  rw [ofDocuments_eq_ok_iff, heq]
  exact and_congr_right fun _ => and_congr_right fun hnames => cycle?_eq_none_iff hnames

/-- Documents have a table exactly when each name is defined once and no typedef leads back to
itself. In every table, no name is refused for a cycle, and every typedef is resolved to a type that
is no typedef again. -/
theorem cycles_exact (ds : List Document) :
    ((∃ t, ofDocuments ds = .ok t) ↔ (merged ds).names.Nodup ∧ (merged ds).Acyclic) ∧
      ∀ t, ofDocuments ds = .ok t → ∀ name,
        (∀ chain, t.resolve name ≠ .error (.typedefCycle chain)) ∧
          ∀ d, t.lookup name = some (.typedef d) →
            ∃ u, t.resolve name = .ok (.typedef d u) ∧ t.Final u := by
  constructor
  · constructor
    · rintro ⟨t, ht⟩
      obtain ⟨rfl, hnames, hacyclic⟩ := ofDocuments_iff_acyclic.mp ht
      exact ⟨hnames, hacyclic⟩
    · rintro ⟨hnames, hacyclic⟩
      exact ⟨merged ds, ofDocuments_iff_acyclic.mpr ⟨rfl, hnames, hacyclic⟩⟩
  · intro t ht name
    obtain ⟨-, hnames, hacyclic⟩ := ofDocuments_iff_acyclic.mp ht
    constructor
    · intro chain h
      obtain ⟨d, hlookup, hfailed⟩ := lookup_of_resolve_cycle h
      obtain ⟨u, hu, -⟩ := underlying_succeeds hnames hacyclic (mem_of_lookup hlookup)
      cases hu.symm.trans hfailed
    · intro d hlookup
      obtain ⟨u, hu, hfinal⟩ := underlying_succeeds hnames hacyclic (mem_of_lookup hlookup)
      exact ⟨u, resolve_of_typedef hlookup hu, hfinal⟩

def row : Typedef := ⟨"Row", .list (.identifier "shared.Cell")⟩

def cell : Typedef := ⟨"Cell", .identifier "Score"⟩

def score : Typedef := ⟨"Score", .i64⟩

/-- Two documents, of which the first one mentions a typedef of the second one by a qualified name
inside of a container. -/
def tables : List Document := [⟨[(.typedef row)]⟩, ⟨[(.typedef cell), (.typedef score)]⟩]

def vine : Typedef := ⟨"Vine", .map .string (.list (.identifier "Vine"))⟩

/-- A document with a typedef that mentions itself inside of containers. -/
def climbing : Document := ⟨[(.typedef vine)]⟩

theorem cycles_exact_tables : ∃ t, ofDocuments tables = .ok t ∧
    t.resolve "shared.Cell" = .ok (.typedef cell .i64) ∧ t.Final .i64 ∧
    (merged tables).Acyclic ∧ ¬ ∃ t, ofDocuments [climbing] = .ok t := by
  obtain ⟨hexact, hall⟩ := cycles_exact tables
  obtain ⟨-, hacyclic⟩ := hexact.mp ⟨_, rfl⟩
  obtain ⟨-, hresolve⟩ := hall (merged tables) rfl "shared.Cell"
  obtain ⟨u, hu, hfinal⟩ := hresolve cell rfl
  refine ⟨merged tables, rfl, rfl, ?_, hacyclic, fun hvine => ?_⟩
  · cases hu
    exact hfinal
  · obtain ⟨-, hnone⟩ := (cycles_exact [climbing]).1.mp hvine
    have hleads : (merged [climbing]).Leads vine vine :=
      ⟨"Vine", .value (.list .identifier), rfl⟩
    exact hnone vine (List.mem_singleton_self _) (.single hleads)

end SymbolTable

end Thrift
