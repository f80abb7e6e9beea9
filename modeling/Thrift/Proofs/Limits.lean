-- Limits. A reading under narrower limits ends as the one under wider limits does, with the same
-- value or fault and the same bytes unread, unless it stops at a limit.
import Thrift.Proofs.Skipping

namespace Thrift

namespace Reading

variable {α β σ : Type}

/-- The first reading ends as the second one does, or stops at a limit. -/
def Curbed (limit : Fault → Prop) (m n : Reading α) : Prop :=
  ∀ unread, m unread = n unread ∨ ∃ e rest, limit e ∧ m unread = .error e rest

namespace Curbed

variable {limit : Fault → Prop}

theorem refl (m : Reading α) : Curbed limit m m := fun _ => .inl rfl

theorem stop {e : Fault} (h : limit e) (n : Reading α) : Curbed limit (throw e) n :=
  fun unread => .inr ⟨e, unread, h, rfl⟩

theorem bind {m n : Reading α} {f g : α → Reading β} (h : Curbed limit m n)
    (hfg : ∀ a, Curbed limit (f a) (g a)) : Curbed limit (m >>= f) (n >>= g) := by
  intro unread
  rcases h unread with heq | ⟨e, rest, he, hm⟩
  · rcases hn : n unread with ⟨a, mid⟩ | ⟨e, mid⟩
    · rw [Steps.bind_ok (heq.trans hn), Steps.bind_ok hn]
      exact hfg a mid
    · rw [Steps.bind_error (heq.trans hn), Steps.bind_error hn]
      exact .inl rfl
  · exact .inr ⟨e, rest, he, Steps.bind_error hm f⟩

theorem map {m n : Reading α} (h : Curbed limit m n) (f : α → β) :
    Curbed limit (f <$> m) (f <$> n) := by
  rw [map_eq_pure_bind, map_eq_pure_bind]
  exact h.bind fun a => refl _

theorem times {body body' : Reading Unit} (h : Curbed limit body body') :
    ∀ n, Curbed limit (Reading.times body n) (Reading.times body' n)
  | 0 => refl _
  | n + 1 => h.bind fun _ => times h n

/-- The induction is on the number of unread bytes, of which every field takes some. -/
theorem fields {body body' : FieldHeader → σ → Reading σ}
    (ht : ∀ header state, Takes (body header state))
    (ht' : ∀ header state, Takes (body' header state))
    (h : ∀ header state, Curbed limit (body header state) (body' header state)) (state : σ) :
    Curbed limit (Reading.fields body state) (Reading.fields body' state) := by
  intro unread
  induction hn : unread.length using Nat.strongRecOn generalizing unread state with
  | ind n ih =>
    rw [fields_eq ht, fields_eq ht']
    rcases hh : fieldHeader unread with ⟨header, mid⟩ | ⟨e, mid⟩
    · have hmid := fieldHeader_shorter hh
      rw [Steps.bind_ok hh, Steps.bind_ok hh]
      by_cases hstop : header.type = .stop
      · rw [if_pos hstop, if_pos hstop]
        exact .inl rfl
      · rw [if_neg hstop, if_neg hstop]
        rcases h header state mid with heq | ⟨e, rest, he, hb⟩
        · rcases hb : body' header state mid with ⟨next, mid'⟩ | ⟨e, rest⟩
          · have hmid' := (ht' header state).length_le hb
            rw [Steps.bind_ok (heq.trans hb), Steps.bind_ok hb]
            exact ih mid'.length (by omega) next mid' rfl
          · rw [Steps.bind_error (heq.trans hb), Steps.bind_error hb]
            exact .inl rfl
        · exact .inr ⟨e, rest, he, Steps.bind_error hb _⟩
    · rw [Steps.bind_error hh, Steps.bind_error hh]
      exact .inl rfl

/-- What is read under the wider limits is read under the narrower ones too, or a limit stops it. -/
theorem ok_or {m n : Reading α} (h : Curbed limit m n) {unread rest : Bytes} {a : α}
    (hn : n unread = .ok a rest) :
    m unread = .ok a rest ∨ ∃ e rest', limit e ∧ m unread = .error e rest' := by
  rcases h unread with heq | hstop
  · exact .inl (heq.trans hn)
  · exact .inr hstop

end Curbed

/-! ## Sizes and depth -/

/-- Sizes within the limits of the first configuration are read as within those of the second one,
or a limit stops them. -/
structure SizesCurbed (limit : Fault → Prop) (c c' : WireConfig) : Prop where
  string : ∀ what, Curbed limit (size what c.maxStringSize) (size what c'.maxStringSize)
  container : ∀ what, Curbed limit (size what c.maxContainerSize) (size what c'.maxContainerSize)

namespace SizesCurbed

variable {limit : Fault → Prop} {c c' : WireConfig} (h : SizesCurbed limit c c')

include h

theorem binary : Curbed limit (binary c) (binary c') := (h.string .string).bind fun _ => .refl _

theorem listHeader : Curbed limit (listHeader c) (listHeader c') :=
  (Curbed.refl wireType).bind fun _ => (h.container .list).bind fun _ => .refl _

theorem setHeader : Curbed limit (setHeader c) (setHeader c') :=
  (Curbed.refl wireType).bind fun _ => (h.container .set).bind fun _ => .refl _

theorem mapHeader : Curbed limit (mapHeader c) (mapHeader c') :=
  (Curbed.refl wireType).bind fun _ => (Curbed.refl wireType).bind fun _ =>
    (h.container .map).bind fun _ => .refl _

/-- With less depth and narrower sizes, passing over a value stops at a limit or ends alike. -/
theorem skipWithin (hstop : limit (.protocol .skipDepth)) {depth depth' : Nat}
    (hd : depth ≤ depth') (t : WireType) :
    Curbed limit (skipWithin c depth t) (skipWithin c' depth' t) := by
  induction depth generalizing depth' t with
  | zero => exact .stop hstop _
  | succ depth ih =>
    obtain ⟨depth', rfl⟩ : ∃ d, depth' = d + 1 := ⟨depth' - 1, by omega⟩
    have hbody : ∀ t, Curbed limit (Reading.skipWithin c depth t) (Reading.skipWithin c' depth' t) :=
      ih (by omega)
    cases t with
    | string => exact h.binary.bind fun _ => .refl _
    | struct =>
      exact .fields (fun header _ => skipWithin_takes c depth header.type)
        (fun header _ => skipWithin_takes c' depth' header.type)
        (fun header _ => hbody header.type) ()
    | map =>
      refine h.mapHeader.bind fun header => ?_
      exact .times ((hbody header.key).bind fun _ => hbody header.value) header.size
    | set => exact h.setHeader.bind fun header => .times (hbody _) header.size
    | list => exact h.listHeader.bind fun header => .times (hbody _) header.size
    | _ => exact .refl _

end SizesCurbed

/-- Values nest too deeply to be passed over. -/
def StopsAtDepth (e : Fault) : Prop := e = .protocol .skipDepth

/-- A lower limit on the depth stops passing over a value, or changes nothing. -/
theorem skip_curbed (c : WireConfig) {limit : Nat} (h : c.maxDepth ≤ limit) (t : WireType) :
    Curbed StopsAtDepth (skip c t) (skip { c with maxDepth := limit } t) := by
  have hsizes : SizesCurbed StopsAtDepth c { c with maxDepth := limit } :=
    ⟨fun _ => .refl _, fun _ => .refl _⟩
  have hstop : StopsAtDepth (.protocol .skipDepth) := rfl
  exact hsizes.skipWithin hstop h t

end Reading

end Thrift
