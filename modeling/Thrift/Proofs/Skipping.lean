-- Passing over values. How deep a value may nest only decides whether it is passed over at all,
-- so the values of a tag end at one place, whatever the depth.
import Thrift.Proofs.Reading

namespace Thrift

namespace Reading

/-! ## Depth -/

/-- More depth changes nothing where less of it was enough. -/
def Deepens (body : Nat → Reading Unit) : Prop :=
  ∀ depth depth', depth ≤ depth' → Leads Eq (body depth) (body depth')

/-- With enough depth the body takes the bytes up to the rest. -/
def Suffices (body : Nat → Reading Unit) (unread rest : Bytes) : Prop :=
  ∃ depth, body depth unread = .ok () rest

theorem Deepens.ok {body : Nat → Reading Unit} (h : Deepens body) {depth depth' : Nat}
    {unread rest : Bytes} (hd : depth ≤ depth') (hb : body depth unread = .ok () rest) :
    body depth' unread = .ok () rest := by
  obtain ⟨_, hb', -⟩ := h depth depth' hd unread () rest hb
  exact hb'

theorem Deepens.bind {body body' : Nat → Reading Unit} (h : Deepens body) (h' : Deepens body') :
    Deepens fun depth => body depth >>= fun _ => body' depth :=
  fun depth depth' hd => (h depth depth' hd).bind fun _ _ _ => h' depth depth' hd

theorem Deepens.times {body : Nat → Reading Unit} (h : Deepens body) (n : Nat) :
    Deepens fun depth => times (body depth) n :=
  fun depth depth' hd => .times (h depth depth' hd) n

theorem Suffices.bind {body body' : Nat → Reading Unit} (h : Deepens body) (h' : Deepens body')
    {unread mid rest : Bytes} (hb : Suffices body unread mid) (hb' : Suffices body' mid rest) :
    Suffices (fun depth => body depth >>= fun _ => body' depth) unread rest := by
  obtain ⟨depth, hb⟩ := hb
  obtain ⟨depth', hb'⟩ := hb'
  have hfirst := h.ok (Nat.le_max_left depth depth') hb
  have hsecond := h'.ok (Nat.le_max_right depth depth') hb'
  exact ⟨max depth depth', (Steps.bind_ok hfirst _).trans hsecond⟩

/-- With one more level, what was passed over still is, up to the same place. -/
theorem skipWithin_succ_leads (c : WireConfig) (depth : Nat) (t : WireType) :
    Leads Eq (skipWithin c depth t) (skipWithin c (depth + 1) t) := by
  induction depth generalizing t with
  | zero => exact .throw _ _
  | succ depth ih =>
    cases t with
    | struct =>
      exact .fields (fun header _ => skipWithin_takes c depth header.type)
        (fun header _ => skipWithin_takes c (depth + 1) header.type)
        (fun header _ _ _ => ih header.type) rfl
    | map =>
      refine (Leads.refl (mapHeader c)).bind fun header _ heq => ?_
      subst heq
      exact .times ((ih header.key).bind fun _ _ _ => ih header.value) header.size
    | set =>
      refine (Leads.refl (setHeader c)).bind fun header _ heq => ?_
      subst heq
      exact .times (ih header.element) header.size
    | list =>
      refine (Leads.refl (listHeader c)).bind fun header _ heq => ?_
      subst heq
      exact .times (ih header.element) header.size
    | _ => exact Leads.refl _

theorem skipWithin_deepens (c : WireConfig) (t : WireType) :
    Deepens fun depth => skipWithin c depth t := by
  intro depth depth' hd
  induction hd with
  | refl => exact .refl _
  | step _ ih =>
    intro unread a rest ha
    obtain ⟨b, hb, rfl⟩ := ih unread a rest ha
    exact skipWithin_succ_leads c _ t unread _ rest hb

/-- Of a configuration, passing over values only minds the sizes. -/
theorem skipWithin_maxDepth (c : WireConfig) (limit depth : Nat) (t : WireType) :
    skipWithin { c with maxDepth := limit } depth t = skipWithin c depth t := by
  induction depth generalizing t with
  | zero => rfl
  | succ depth ih =>
    have hbody : skipWithin { c with maxDepth := limit } depth = skipWithin c depth := funext ih
    cases t with
    | struct => rw [skipWithin, skipWithin, hbody]
    | map =>
      rw [skipWithin, skipWithin, hbody]
      rfl
    | set =>
      rw [skipWithin, skipWithin, hbody]
      rfl
    | list =>
      rw [skipWithin, skipWithin, hbody]
      rfl
    | _ => rfl

/-- The fields of a struct, each passed over. -/
def skipFields (c : WireConfig) (depth : Nat) : Reading Unit :=
  fields (fun header _ => skipWithin c depth header.type) ()

theorem skipFields_deepens (c : WireConfig) : Deepens (skipFields c) :=
  fun depth depth' hd => .fields (fun header _ => skipWithin_takes c depth header.type)
    (fun header _ => skipWithin_takes c depth' header.type)
    (fun header _ _ _ => skipWithin_deepens c header.type depth depth' hd) rfl

/-! ## Where values end -/

/-- A value of the tag ends where the rest begins. -/
def Passes (c : WireConfig) (t : WireType) : Bytes → Bytes → Prop :=
  Suffices fun depth => skipWithin c depth t

/-- Every nesting limit above some depth is large enough. -/
theorem Passes.skip {c : WireConfig} {t : WireType} {unread rest : Bytes}
    (h : Passes c t unread rest) : ∃ depth, ∀ limit, depth ≤ limit →
      skip { c with maxDepth := limit } t unread = .ok () rest := by
  obtain ⟨depth, h⟩ := h
  refine ⟨depth, fun limit hlimit => ?_⟩
  rw [Reading.skip, skipWithin_maxDepth]
  exact (skipWithin_deepens c t).ok hlimit h

/-- A struct ends with its fields. -/
theorem passes_struct {c : WireConfig} {unread rest : Bytes}
    (h : Suffices (skipFields c) unread rest) : Passes c .struct unread rest := by
  obtain ⟨depth, h⟩ := h
  exact ⟨depth + 1, h⟩

theorem skipFields_stop {c : WireConfig} {header : FieldHeader} {unread rest : Bytes}
    (hh : fieldHeader unread = .ok header rest) (hstop : header.type = .stop) :
    Suffices (skipFields c) unread rest := by
  refine ⟨0, ?_⟩
  rw [skipFields, fields_eq fun header _ => skipWithin_takes c 0 header.type, Steps.bind_ok hh,
    if_pos hstop]
  rfl

theorem skipFields_field {c : WireConfig} {header : FieldHeader} {unread mid mid' rest : Bytes}
    (hh : fieldHeader unread = .ok header mid) (hstop : header.type ≠ .stop)
    (hvalue : Passes c header.type mid mid') (hrest : Suffices (skipFields c) mid' rest) :
    Suffices (skipFields c) unread rest := by
  obtain ⟨depth, h⟩ := hvalue.bind (skipWithin_deepens c header.type) (skipFields_deepens c) hrest
  refine ⟨depth, ?_⟩
  rw [skipFields, fields_eq fun header _ => skipWithin_takes c depth header.type,
    Steps.bind_ok hh, if_neg hstop]
  exact h

/-- So many values of the tag end where the rest begins. -/
def PassesItems (c : WireConfig) (t : WireType) (n : Nat) : Bytes → Bytes → Prop :=
  Suffices fun depth => times (skipWithin c depth t) n

theorem passesItems_zero (c : WireConfig) (t : WireType) (unread : Bytes) :
    PassesItems c t 0 unread unread := ⟨0, rfl⟩

theorem passesItems_succ {c : WireConfig} {t : WireType} {n : Nat} {unread mid rest : Bytes}
    (hv : Passes c t unread mid) (hvs : PassesItems c t n mid rest) :
    PassesItems c t (n + 1) unread rest :=
  hv.bind (skipWithin_deepens c t) ((skipWithin_deepens c t).times n) hvs

/-- So many entries with keys and values of the tags end where the rest begins. -/
def PassesEntries (c : WireConfig) (k t : WireType) (n : Nat) : Bytes → Bytes → Prop :=
  Suffices fun depth => times (skipWithin c depth k >>= fun _ => skipWithin c depth t) n

theorem passesEntries_zero (c : WireConfig) (k t : WireType) (unread : Bytes) :
    PassesEntries c k t 0 unread unread := ⟨0, rfl⟩

theorem passesEntries_succ {c : WireConfig} {k t : WireType} {n : Nat}
    {unread mid mid' rest : Bytes} (hk : Passes c k unread mid) (hv : Passes c t mid mid')
    (hes : PassesEntries c k t n mid' rest) : PassesEntries c k t (n + 1) unread rest := by
  have hboth := (skipWithin_deepens c k).bind (skipWithin_deepens c t)
  have hentry := hk.bind (skipWithin_deepens c k) (skipWithin_deepens c t) hv
  exact hentry.bind hboth (hboth.times n) hes

theorem passes_list {c : WireConfig} {header : ElementsHeader} {unread mid rest : Bytes}
    (hh : listHeader c unread = .ok header mid)
    (h : PassesItems c header.element header.size mid rest) : Passes c .list unread rest := by
  obtain ⟨depth, h⟩ := h
  exact ⟨depth + 1, (Steps.bind_ok hh _).trans h⟩

theorem passes_set {c : WireConfig} {header : ElementsHeader} {unread mid rest : Bytes}
    (hh : setHeader c unread = .ok header mid)
    (h : PassesItems c header.element header.size mid rest) : Passes c .set unread rest := by
  obtain ⟨depth, h⟩ := h
  exact ⟨depth + 1, (Steps.bind_ok hh _).trans h⟩

theorem passes_map {c : WireConfig} {header : EntriesHeader} {unread mid rest : Bytes}
    (hh : mapHeader c unread = .ok header mid)
    (h : PassesEntries c header.key header.value header.size mid rest) :
    Passes c .map unread rest := by
  obtain ⟨depth, h⟩ := h
  exact ⟨depth + 1, (Steps.bind_ok hh _).trans h⟩

theorem passes_void (c : WireConfig) (unread : Bytes) : Passes c .void unread unread := ⟨1, rfl⟩

end Reading

end Thrift
