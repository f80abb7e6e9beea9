-- Lines of services. Going from a service to what it extends ends at a root or at a name that no
-- service has, or it comes back to a service that was met. Each of the three has an outcome of its
-- own, and only one of them can be the case.
import Thrift.Proofs.Cycles
import Thrift.Proofs.Methods

namespace Thrift

open Relation (ReflTransGen TransGen)

/-- The service of a name is the one that the name is looked up to. -/
theorem SymbolTable.service_cases (t : SymbolTable) (name : String) :
    (∃ s, t.lookup name = some (.service s) ∧ t.service name = .ok s) ∨
      (∀ s, t.lookup name ≠ some (.service s)) ∧ t.service name = .error (t.unknown name) := by
  unfold service
  split
  · rename_i s hlookup
    exact .inl ⟨s, hlookup, rfl⟩
  · rename_i hother
    exact .inr ⟨hother, rfl⟩

namespace Service

/-! ## The graph of services -/

/-- The first service extends the second one, by its name or behind a qualifier. -/
def Extends (t : SymbolTable) (s parent : Service) : Prop :=
  ∃ name, s.parent = some name ∧ t.lookup name = some (.service parent)

/-- The way from parent to parent comes to a service that it was at before. -/
def ComesBack (t : SymbolTable) (s : Service) : Prop :=
  ∃ s', ReflTransGen (Extends t) s s' ∧ TransGen (Extends t) s' s'

/-- The way from parent to parent comes to a name that is no service's. -/
def LosesParent (t : SymbolTable) (s : Service) : Prop :=
  ∃ s' name, ReflTransGen (Extends t) s s' ∧ s'.parent = some name ∧
    ∀ parent, t.lookup name ≠ some (.service parent)

/-- A service behind all that it extends, the root first. -/
inductive Line (t : SymbolTable) : Service → List Service → Prop
  | root {s : Service} (h : s.parent = none) : Line t s [s]
  | child {s parent : Service} {line : List Service} (h : Extends t s parent)
      (hline : Line t parent line) : Line t s (line ++ [s])

variable {t : SymbolTable} {s s' next : Service} {line : List Service}

theorem Extends.mem (h : Extends t s next) : .service next ∈ t.definitions := by
  obtain ⟨name, -, hlookup⟩ := h
  exact SymbolTable.mem_of_lookup hlookup

/-- A service extends one service at most. -/
theorem extends_unique (t : SymbolTable) : Relator.RightUnique (Extends t) := by
  rintro s a b ⟨name, hname, ha⟩ ⟨name', hname', hb⟩
  cases hname.symm.trans hname'
  cases ha.symm.trans hb
  rfl

theorem Line.mem (h : Line t s line) (hs : .service s ∈ t.definitions) :
    ∀ s' ∈ line, .service s' ∈ t.definitions := by
  induction h with
  | root => exact List.forall_mem_singleton.mpr hs
  | child hextends _ ih =>
    exact List.forall_mem_append.mpr ⟨ih hextends.mem, List.forall_mem_singleton.mpr hs⟩

/-! ## Ends -/

theorem eq_of_end {e x : Service} (hend : ∀ p, ¬ Extends t e p)
    (h : ReflTransGen (Extends t) e x) : e = x := by
  rcases ReflTransGen.cases_head h with rfl | ⟨p, hp, -⟩
  · rfl
  · exact absurd hp (hend p)

/-- Whatever lies on the way from a service to itself comes back to itself as well. -/
theorem comesBack_of_reached {e : Service} (hback : TransGen (Extends t) s s)
    (h : ReflTransGen (Extends t) s e) : TransGen (Extends t) e e := by
  induction h with
  | refl => exact hback
  | tail _ hstep ih =>
    obtain ⟨b, hfirst, hrest⟩ := TransGen.head'_iff.mp ih
    cases extends_unique t hfirst hstep
    exact .tail' hrest hstep

/-- A way that ends does not come back. -/
theorem not_comesBack_of_end {e : Service} (h : ReflTransGen (Extends t) s e)
    (hend : ∀ p, ¬ Extends t e p) : ¬ ComesBack t s := by
  rintro ⟨s', hs', hback⟩
  have hround : TransGen (Extends t) e e := by
    rcases ReflTransGen.total_of_right_unique (extends_unique t) h hs' with hpath | hpath
    · cases eq_of_end hend hpath
      exact hback
    · exact comesBack_of_reached hback hpath
  obtain ⟨p, hp, -⟩ := TransGen.head'_iff.mp hround
  exact hend p hp

theorem not_extends_of_root (h : s.parent = none) (p : Service) : ¬ Extends t s p := by
  rintro ⟨name, hname, -⟩
  cases h.symm.trans hname

theorem not_extends_of_lost {name : String} (hname : s.parent = some name)
    (hlost : ∀ parent, t.lookup name ≠ some (.service parent)) (p : Service) :
    ¬ Extends t s p := by
  rintro ⟨name', hname', hp⟩
  cases hname.symm.trans hname'
  exact hlost p hp

theorem LosesParent.not_comesBack (h : LosesParent t s) : ¬ ComesBack t s := by
  obtain ⟨s', name, hs', hname, hlost⟩ := h
  exact not_comesBack_of_end hs' (not_extends_of_lost hname hlost)

theorem Line.exists_root (h : Line t s line) :
    ∃ root, ReflTransGen (Extends t) s root ∧ root.parent = none := by
  induction h with
  | root h => exact ⟨_, .refl, h⟩
  | child h _ ih =>
    obtain ⟨root, hpath, hroot⟩ := ih
    exact ⟨root, .head h hpath, hroot⟩

theorem Line.not_comesBack (h : Line t s line) : ¬ ComesBack t s := by
  obtain ⟨root, hpath, hroot⟩ := h.exists_root
  exact not_comesBack_of_end hpath (not_extends_of_root hroot)

theorem Line.not_losesParent (h : Line t s line) : ¬ LosesParent t s := by
  rintro ⟨s', name, hs', hname, hlost⟩
  obtain ⟨root, hpath, hroot⟩ := h.exists_root
  have hsame : root = s' := by
    rcases ReflTransGen.total_of_right_unique (extends_unique t) hpath hs' with h | h
    · exact eq_of_end (not_extends_of_root hroot) h
    · exact (eq_of_end (not_extends_of_lost hname hlost) h).symm
  subst hsame
  cases hroot.symm.trans hname

/-! ## The way up -/

/-- The services that were met on the way to a service, the last one first. Their names differ,
and each of them leads to the service. So many steps are left. -/
structure Met (t : SymbolTable) (budget : Nat) (s : Service) (chain : List Service) : Prop where
  mem : ∀ s' ∈ s :: chain, .service s' ∈ t.definitions
  names_nodup : ((s :: chain).map (·.name)).Nodup
  budget_eq : budget + chain.length = t.size + 1
  leads : ∀ s' ∈ s :: chain, ReflTransGen (Extends t) s' s

namespace Met

variable {budget : Nat} {chain : List Service}

theorem start (hs : .service s ∈ t.definitions) : Met t (t.size + 1) s [] :=
  ⟨List.forall_mem_singleton.mpr hs, List.nodup_singleton _, rfl,
    List.forall_mem_singleton.mpr .refl⟩

theorem step (h : Met t (budget + 1) s chain) (hnext : Extends t s next)
    (hnew : next.name ∉ (s :: chain).map (·.name)) : Met t budget next (s :: chain) := by
  refine ⟨List.forall_mem_cons.mpr ⟨hnext.mem, h.mem⟩, List.nodup_cons.mpr ⟨hnew, h.names_nodup⟩,
    ?_, List.forall_mem_cons.mpr ⟨.refl, fun s' hs' => (h.leads s' hs').tail hnext⟩⟩
  have hbudget := h.budget_eq
  rw [List.length_cons]
  omega

/-- There are always steps left, as no more services are met than there are names. -/
theorem exists_succ (h : Met t budget s chain) : ∃ b, budget = b + 1 := by
  have hlength : ((s :: chain).map (·.name)).length ≤ t.size := by
    refine SymbolTable.length_le_size h.names_nodup fun n hn => ?_
    obtain ⟨s', hs', rfl⟩ := List.mem_map.mp hn
    exact List.mem_map.mpr ⟨_, h.mem s' hs', rfl⟩
  have hbudget := h.budget_eq
  rw [List.length_map, List.length_cons] at hlength
  exact ⟨budget - 1, by omega⟩

/-- A parent whose name was met is a service that was met. -/
theorem comesBack (h : Met t budget s chain) (hnames : t.names.Nodup) (hnext : Extends t s next)
    (hmet : next.name ∈ (s :: chain).map (·.name)) : ComesBack t s := by
  obtain ⟨s', hs', hname⟩ := List.mem_map.mp hmet
  cases List.inj_on_of_nodup_map hnames (h.mem s' hs') hnext.mem hname
  exact ⟨next, .single hnext, .tail' (h.leads next hs') hnext⟩

end Met

/-- The way up gives the line of the service, or tells of the name that is no service's, or of the
service that it came back to. -/
theorem lineage_cases (hnames : t.names.Nodup) (origin : String) {budget : Nat}
    {chain : List Service} (h : Met t budget s chain) :
    (∃ line, Line t s line ∧ lineage t origin budget s chain = .ok (line ++ chain)) ∨
      (LosesParent t s ∧
        ∃ name, lineage t origin budget s chain = .error (.resolve (t.unknown name))) ∨
      ComesBack t s ∧ ∃ through,
        lineage t origin budget s chain = .error (.procedure (.endlessService origin through)) := by
  induction budget generalizing s chain with
  | zero =>
    obtain ⟨b, hb⟩ := h.exists_succ
    cases hb
  | succ budget ih =>
    rw [lineage]
    rcases hparent : s.parent with _ | name
    · exact .inl ⟨[s], .root hparent, rfl⟩
    · dsimp only
      rcases t.service_cases name with ⟨next, hlookup, hservice⟩ | ⟨hlost, hservice⟩
      · have hnext : Extends t s next := ⟨name, hparent, hlookup⟩
        rw [hservice]
        dsimp only
        split
        · exact .inr (.inr ⟨h.comesBack hnames hnext ‹_›, next.name, rfl⟩)
        · rcases ih (h.step hnext ‹_›) with ⟨line, hline, heq⟩ |
            ⟨⟨s', lost, hs', hrest⟩, heq⟩ | ⟨⟨s', hs', hback⟩, heq⟩
          · refine .inl ⟨line ++ [s], .child hnext hline, ?_⟩
            rw [heq, List.append_assoc]
            rfl
          · exact .inr (.inl ⟨⟨s', lost, .head hnext hs', hrest⟩, heq⟩)
          · exact .inr (.inr ⟨⟨s', .head hnext hs', hback⟩, heq⟩)
      · rw [hservice]
        exact .inr (.inl ⟨⟨s, name, .refl, hparent, hlost⟩, name, rfl⟩)

end Service

end Thrift
