-- What containers tell about their elements. Decoding reads the tag of the elements and does not
-- look at it, so a struct ends where its fields do only as long as the tags are the declared
-- ones. A survey reads a struct as decoding does and takes down the tags on the way.
import Thrift.Proofs.DecodeRefines
import Thrift.Proofs.Skipping

namespace Thrift

/-! ## Surveys -/

/-- The tag that a container with elements tells, and the tag that is declared for them. -/
structure ElementTag where
  told : WireType
  declared : WireType
deriving DecidableEq, Repr

namespace ElementTag

/-- The elements are what they are declared to be. -/
def Holds (t : ElementTag) : Prop := t.told = t.declared

/-- A container without elements tells nothing. -/
def ofSize (n : Nat) (told declared : WireType) : List ElementTag :=
  if n = 0 then [] else [⟨told, declared⟩]

end ElementTag

namespace Form

def surveyItems (item : Reading (List ElementTag)) : Nat → Reading (List ElementTag)
  | 0 => return []
  | n + 1 => do
    let tags ← item
    return tags ++ (← surveyItems item n)

def surveyEntries (key value : Reading (List ElementTag)) : Nat → Reading (List ElementTag)
  | 0 => return []
  | n + 1 => do
    let keyTags ← key
    let tags ← value
    return keyTags ++ tags ++ (← surveyEntries key value n)

/-- Reads a value of the form and takes down the tags of the containers in it. -/
def survey (c : WireConfig) (nested : String → Reading (List ElementTag)) :
    Form → Reading (List ElementTag)
  | scalar kind => (fun _ => []) <$> Machine.readScalar c kind
  | struct name => nested name
  | list element => do
    let header ← Reading.listHeader c
    return ElementTag.ofSize header.size header.element element.wireType ++
      (← surveyItems (element.survey c nested) header.size)
  | set element => do
    let header ← Reading.setHeader c
    return ElementTag.ofSize header.size header.element element.wireType ++
      (← surveyItems (element.survey c nested) header.size)
  | map key value => do
    let header ← Reading.mapHeader c
    return ElementTag.ofSize header.size header.key key.wireType ++
      ElementTag.ofSize header.size header.value value.wireType ++
      (← surveyEntries (key.survey c nested) (value.survey c nested) header.size)
  | void => return []

end Form

/-- Reads what stands behind a header and takes down the tags of the containers in it. -/
def Record.surveyField (c : WireConfig) (nested : String → Reading (List ElementTag)) (r : Record)
    (header : Reading.FieldHeader) (tags : List ElementTag) : Reading (List ElementTag) :=
  match r.members.find? (·.id == header.id) with
  | some m =>
    if header.type = m.form.wireType then do return tags ++ (← m.form.survey c nested)
    else do
      Reading.skip c header.type
      return tags
  | none => do
    Reading.skip c header.type
    return tags

namespace Schema

/-- The survey of a struct; the first number is how deep structs may still be nested. -/
def surveyWithin (s : Schema) (c : WireConfig) : Nat → String → Reading (List ElementTag)
  | 0, name => Reading.fail (.structDepth name c.maxDepth)
  | levels + 1, name =>
    match s.record? name with
    | some r => Reading.fields (r.surveyField c (s.surveyWithin c levels)) []
    | none => Machine.broken (.noCodec name)

/-- The tags of all containers with elements inside of the struct of a name. -/
def survey (s : Schema) (c : WireConfig) (name : String) : Reading (List ElementTag) :=
  s.surveyWithin c c.maxDepth name

end Schema

/-! ## What decodes can be surveyed -/

open Reading (Leads Takes)

namespace Form

theorem surveyItems_takes {item : Reading (List ElementTag)} (h : Takes item) :
    ∀ n, Takes (surveyItems item n)
  | 0 => .pure _
  | n + 1 => h.bind fun _ => (surveyItems_takes h n).map _

theorem surveyEntries_takes {key value : Reading (List ElementTag)} (hk : Takes key)
    (hv : Takes value) : ∀ n, Takes (surveyEntries key value n)
  | 0 => .pure _
  | n + 1 => hk.bind fun _ => hv.bind fun _ => (surveyEntries_takes hk hv n).map _

theorem survey_takes {c : WireConfig} {nested : String → Reading (List ElementTag)}
    (h : ∀ name, Takes (nested name)) (form : Form) : Takes (form.survey c nested) := by
  induction form with
  | scalar kind => exact (Takes.law.scalar c kind).map _
  | struct name => exact h name
  | list element ih =>
    exact (Takes.law.listHeader c).bind fun header => (surveyItems_takes ih header.size).map _
  | set element ih =>
    exact (Takes.law.setHeader c).bind fun header => (surveyItems_takes ih header.size).map _
  | map key value ihk ihv =>
    exact (Takes.law.mapHeader c).bind fun header =>
      (surveyEntries_takes ihk ihv header.size).map _
  | void => exact .pure _

end Form

theorem Record.surveyField_takes {c : WireConfig} {nested : String → Reading (List ElementTag)}
    (h : ∀ name, Takes (nested name)) (r : Record) (header : Reading.FieldHeader)
    (tags : List ElementTag) : Takes (r.surveyField c nested header tags) := by
  unfold surveyField
  split
  · split
    · exact (Form.survey_takes h _).map _
    · exact (Reading.skip_takes c header.type).map _
  · exact (Reading.skip_takes c header.type).map _

theorem Schema.surveyWithin_takes (s : Schema) (c : WireConfig) (levels : Nat) (name : String) :
    Takes (s.surveyWithin c levels name) := by
  induction levels generalizing name with
  | zero => exact .throw _
  | succ levels ih =>
    rw [surveyWithin]
    split
    · exact Reading.fields_takes (fun header tags => Record.surveyField_takes ih _ header tags) []
    · exact .throw _

/-- Wherever the first reading succeeds, the second one does and leaves the same bytes. -/
def Reading.Tracks {α β : Type} (m : Reading α) (n : Reading β) : Prop :=
  Leads (fun _ _ => True) m n

namespace Form

theorem readItems_tracks {item : Reading Value} {tags : Reading (List ElementTag)}
    (h : item.Tracks tags) (n : Nat) : (readItems item n).Tracks (surveyItems tags n) := by
  induction n with
  | zero => exact .pure trivial
  | succ n ih => exact h.bind fun _ _ _ => ih.map fun _ _ _ => trivial

theorem readEntries_tracks {key item : Reading Value} {keyTags tags : Reading (List ElementTag)}
    (hk : key.Tracks keyTags) (h : item.Tracks tags) (n : Nat) :
    (readEntries key item n).Tracks (surveyEntries keyTags tags n) := by
  induction n with
  | zero => exact .pure trivial
  | succ n ih =>
    exact hk.bind fun _ _ _ => h.bind fun _ _ _ => ih.map fun _ _ _ => trivial

theorem read_tracks {c : WireConfig} {nested : String → Reading StructValue}
    {tags : String → Reading (List ElementTag)} (h : ∀ name, (nested name).Tracks (tags name))
    (form : Form) : (form.read c nested).Tracks (form.survey c tags) := by
  induction form with
  | scalar kind =>
    have hread := (Leads.refl (Machine.readScalar c kind)).map (S := fun _ _ => True)
      (f := id) (g := fun _ => ([] : List ElementTag)) fun _ _ _ => trivial
    rwa [id_map] at hread
  | struct name =>
    have hread := (h name).map (S := fun _ _ => True) (f := StructValue.toValue) (g := id)
      fun _ _ _ => trivial
    rwa [id_map] at hread
  | list element ih =>
    refine (Leads.refl (Reading.listHeader c)).bind fun header _ heq => ?_
    subst heq
    exact (readItems_tracks ih header.size).map fun _ _ _ => trivial
  | set element ih =>
    refine (Leads.refl (Reading.setHeader c)).bind fun header _ heq => ?_
    subst heq
    exact (readItems_tracks ih header.size).map fun _ _ _ => trivial
  | map key value ihk ihv =>
    refine (Leads.refl (Reading.mapHeader c)).bind fun header _ heq => ?_
    subst heq
    exact (readEntries_tracks ihk ihv header.size).map fun _ _ _ => trivial
  | void => exact .pure trivial

end Form

namespace Record

theorem readField_tracks {c : WireConfig} {nested : String → Reading StructValue}
    {tags : String → Reading (List ElementTag)} (h : ∀ name, (nested name).Tracks (tags name))
    (r : Record) (header : Reading.FieldHeader) (found : List (String × Value))
    (before : List ElementTag) :
    (r.readField c nested header found).Tracks (r.surveyField c tags header before) := by
  have hskip : (do Reading.skip c header.type; return found : Reading _).Tracks
      (do Reading.skip c header.type; return before) :=
    (Leads.refl (Reading.skip c header.type)).bind fun _ _ _ => .pure trivial
  rw [readField, surveyField]
  generalize r.members.find? (fun m => m.id == header.id) = member
  rcases member with _ | m
  · exact hskip
  · dsimp only
    rw [Member.readValue]
    by_cases htype : header.type = m.form.wireType
    · rw [if_pos htype, if_pos htype]
      split
      · rename_i hvoid
        rw [beq_iff_eq.mp hvoid]
        exact .pure trivial
      · exact (Form.read_tracks h m.form).map fun _ _ _ => trivial
    · rw [if_neg htype, if_neg htype]
      exact hskip

theorem read_tracks {finish : Finish} {c : WireConfig} {nested : String → Reading StructValue}
    {tags : String → Reading (List ElementTag)} (h : ∀ name, (nested name).Tracks (tags name))
    (hn : ∀ name, Takes (nested name)) (ht : ∀ name, Takes (tags name)) (r : Record) :
    (r.read finish c nested).Tracks (Reading.fields (r.surveyField c tags) []) := by
  have hfields : (Reading.fields (r.readField c nested) []).Tracks
      (Reading.fields (r.surveyField c tags) []) :=
    .fields (readField_takes hn r) (surveyField_takes ht r)
      (fun header found before _ => readField_tracks h r header found before) trivial
  rw [← bind_pure (Reading.fields (r.surveyField c tags) [])]
  refine hfields.bind fun found _ _ => ?_
  split
  · exact .pure trivial
  · exact .throw _ _

end Record

/-- A struct that is decoded can be surveyed, and both end at the same place. -/
theorem Schema.readWithin_tracks (s : Schema) (finish : Finish) (c : WireConfig) (levels : Nat)
    (name : String) : (s.readWithin finish c levels name).Tracks (s.surveyWithin c levels name) := by
  induction levels generalizing name with
  | zero => exact .throw _ _
  | succ levels ih =>
    rw [readWithin, surveyWithin]
    rcases s.record? name with _ | r
    · exact .throw _ _
    · exact Record.read_tracks ih (s.readWithin_takes finish c levels)
        (s.surveyWithin_takes c levels) r

/-! ## Where surveys end -/

open Reading (Passes PassesItems PassesEntries Suffices skipFields)

/-- Where all tags hold, what is surveyed ends where a value of the wire type ends. -/
def EndsAs (c : WireConfig) (t : WireType) (m : Reading (List ElementTag)) : Prop :=
  ∀ unread tags rest, m unread = .ok tags rest → (∀ tag ∈ tags, tag.Holds) →
    Passes c t unread rest

theorem Machine.readScalar_passes {c : WireConfig} {kind : ScalarKind} {v : Value}
    {unread rest : Bytes} (h : readScalar c kind unread = .ok v rest) :
    Passes c kind.wireType unread rest := by
  refine ⟨1, ?_⟩
  cases kind with
  | string =>
    obtain ⟨s, hs, -⟩ := Steps.map_eq_ok_iff.mp h
    obtain ⟨bs, mid, hbs, hs⟩ := Steps.bind_eq_ok_iff.mp hs
    rcases htext : Text.ofBytes bs with fault | text
    · rw [htext] at hs
      exact absurd hs Reading.fail_ne_ok
    · rw [htext] at hs
      obtain ⟨-, rfl⟩ := Steps.pure_eq_ok_iff.mp hs
      exact Steps.map_ok hbs _
  | _ =>
    obtain ⟨a, ha, -⟩ := Steps.map_eq_ok_iff.mp h
    exact Steps.map_ok ha _

theorem ElementTag.eq_of_holds {n : Nat} {told declared : WireType} (hn : n ≠ 0)
    (h : ∀ tag ∈ ofSize n told declared, tag.Holds) : told = declared := by
  rw [ofSize, if_neg hn] at h
  exact h _ (List.mem_singleton.mpr rfl)

namespace Form

theorem surveyItems_passes {c : WireConfig} {t : WireType} {item : Reading (List ElementTag)}
    (h : EndsAs c t item) {n : Nat} {unread rest : Bytes} {tags : List ElementTag}
    (hs : surveyItems item n unread = .ok tags rest) (htags : ∀ tag ∈ tags, tag.Holds) :
    PassesItems c t n unread rest := by
  induction n generalizing unread tags with
  | zero =>
    obtain ⟨-, rfl⟩ := Steps.pure_eq_ok_iff.mp hs
    exact Reading.passesItems_zero c t unread
  | succ n ih =>
    obtain ⟨first, mid, hfirst, hs⟩ := Steps.bind_eq_ok_iff.mp hs
    obtain ⟨others, hothers, rfl⟩ := Steps.map_eq_ok_iff.mp hs
    obtain ⟨hf, ho⟩ := List.forall_mem_append.mp htags
    exact Reading.passesItems_succ (h unread first mid hfirst hf) (ih hothers ho)

theorem surveyEntries_passes {c : WireConfig} {k t : WireType}
    {key item : Reading (List ElementTag)} (hk : EndsAs c k key) (h : EndsAs c t item) {n : Nat}
    {unread rest : Bytes} {tags : List ElementTag}
    (hs : surveyEntries key item n unread = .ok tags rest) (htags : ∀ tag ∈ tags, tag.Holds) :
    PassesEntries c k t n unread rest := by
  induction n generalizing unread tags with
  | zero =>
    obtain ⟨-, rfl⟩ := Steps.pure_eq_ok_iff.mp hs
    exact Reading.passesEntries_zero c k t unread
  | succ n ih =>
    obtain ⟨keyTags, mid, hkey, hs⟩ := Steps.bind_eq_ok_iff.mp hs
    obtain ⟨first, mid', hfirst, hs⟩ := Steps.bind_eq_ok_iff.mp hs
    obtain ⟨others, hothers, rfl⟩ := Steps.map_eq_ok_iff.mp hs
    obtain ⟨hentry, ho⟩ := List.forall_mem_append.mp htags
    obtain ⟨hkf, hf⟩ := List.forall_mem_append.mp hentry
    exact Reading.passesEntries_succ (hk unread keyTags mid hkey hkf) (h mid first mid' hfirst hf)
      (ih hothers ho)

/-- A container that tells the declared tag, or has no elements, ends where its elements of the
told tag end. -/
theorem passesItems_told {c : WireConfig} {told declared : WireType} {n : Nat}
    {unread rest : Bytes} (htags : ∀ tag ∈ ElementTag.ofSize n told declared, tag.Holds)
    (h : PassesItems c declared n unread rest) : PassesItems c told n unread rest := by
  rcases n with _ | n
  · exact h
  · rw [ElementTag.eq_of_holds (Nat.succ_ne_zero n) htags]
    exact h

theorem passesEntries_told {c : WireConfig} {toldKey key told declared : WireType} {n : Nat}
    {unread rest : Bytes} (hkeys : ∀ tag ∈ ElementTag.ofSize n toldKey key, tag.Holds)
    (htags : ∀ tag ∈ ElementTag.ofSize n told declared, tag.Holds)
    (h : PassesEntries c key declared n unread rest) :
    PassesEntries c toldKey told n unread rest := by
  rcases n with _ | n
  · exact h
  · rw [ElementTag.eq_of_holds (Nat.succ_ne_zero n) hkeys,
      ElementTag.eq_of_holds (Nat.succ_ne_zero n) htags]
    exact h

/-- The survey of a form ends where a value of its wire type ends. -/
theorem survey_endsAs {c : WireConfig} {nested : String → Reading (List ElementTag)}
    (h : ∀ name, EndsAs c .struct (nested name)) (form : Form) :
    EndsAs c form.wireType (form.survey c nested) := by
  induction form with
  | scalar kind =>
    intro unread tags rest hs _
    obtain ⟨v, hv, -⟩ := Steps.map_eq_ok_iff.mp hs
    exact Machine.readScalar_passes hv
  | struct name => exact h name
  | list element ih =>
    intro unread tags rest hs htags
    obtain ⟨header, mid, hheader, hs⟩ := Steps.bind_eq_ok_iff.mp hs
    obtain ⟨others, hothers, rfl⟩ := Steps.map_eq_ok_iff.mp hs
    obtain ⟨htold, ho⟩ := List.forall_mem_append.mp htags
    exact Reading.passes_list hheader (passesItems_told htold (surveyItems_passes ih hothers ho))
  | set element ih =>
    intro unread tags rest hs htags
    obtain ⟨header, mid, hheader, hs⟩ := Steps.bind_eq_ok_iff.mp hs
    obtain ⟨others, hothers, rfl⟩ := Steps.map_eq_ok_iff.mp hs
    obtain ⟨htold, ho⟩ := List.forall_mem_append.mp htags
    exact Reading.passes_set hheader (passesItems_told htold (surveyItems_passes ih hothers ho))
  | map key value ihk ihv =>
    intro unread tags rest hs htags
    obtain ⟨header, mid, hheader, hs⟩ := Steps.bind_eq_ok_iff.mp hs
    obtain ⟨others, hothers, rfl⟩ := Steps.map_eq_ok_iff.mp hs
    obtain ⟨htold, ho⟩ := List.forall_mem_append.mp htags
    obtain ⟨hkeys, hvalues⟩ := List.forall_mem_append.mp htold
    exact Reading.passes_map hheader
      (passesEntries_told hkeys hvalues (surveyEntries_passes ihk ihv hothers ho))
  | void =>
    intro unread tags rest hs _
    obtain ⟨-, rfl⟩ := Steps.pure_eq_ok_iff.mp hs
    exact Reading.passes_void c unread

end Form

namespace Record

/-- A field adds its tags to those before; where they hold, it ends where a value of the type in
its header ends. -/
theorem surveyField_passes {c : WireConfig} {nested : String → Reading (List ElementTag)}
    (h : ∀ name, EndsAs c .struct (nested name)) {r : Record} {header : Reading.FieldHeader}
    {before tags : List ElementTag} {unread rest : Bytes}
    (hs : r.surveyField c nested header before unread = .ok tags rest) :
    (∀ tag ∈ before, tag ∈ tags) ∧
      ((∀ tag ∈ tags, tag.Holds) → Passes c header.type unread rest) := by
  have hskip : (do Reading.skip c header.type; return before : Reading _) unread =
      .ok tags rest → (∀ tag ∈ before, tag ∈ tags) ∧
        ((∀ tag ∈ tags, tag.Holds) → Passes c header.type unread rest) := by
    intro hs
    obtain ⟨_, mid, hmid, hs⟩ := Steps.bind_eq_ok_iff.mp hs
    obtain ⟨rfl, rfl⟩ := Steps.pure_eq_ok_iff.mp hs
    exact ⟨fun _ htag => htag, fun _ => ⟨c.maxDepth, hmid⟩⟩
  rw [surveyField] at hs
  generalize r.members.find? (fun m => m.id == header.id) = member at hs
  rcases member with _ | m
  · exact hskip hs
  · dsimp only at hs
    split at hs
    · rename_i htype
      obtain ⟨new, hnew, rfl⟩ := Steps.map_eq_ok_iff.mp hs
      refine ⟨fun _ htag => List.mem_append_left new htag, fun htags => ?_⟩
      rw [htype]
      exact Form.survey_endsAs h m.form unread new rest hnew
        fun tag htag => htags tag (List.mem_append_right before htag)
    · exact hskip hs

/-- Fields that are surveyed end where fields that are passed over end. -/
theorem surveyFields_suffices {c : WireConfig} {nested : String → Reading (List ElementTag)}
    (h : ∀ name, EndsAs c .struct (nested name)) (ht : ∀ name, Takes (nested name)) {r : Record}
    {before tags : List ElementTag} {unread rest : Bytes}
    (hs : Reading.fields (r.surveyField c nested) before unread = .ok tags rest) :
    (∀ tag ∈ before, tag ∈ tags) ∧
      ((∀ tag ∈ tags, tag.Holds) → Suffices (skipFields c) unread rest) := by
  induction hn : unread.length using Nat.strongRecOn generalizing unread before with
  | ind n ih =>
    rw [Reading.fields_eq (surveyField_takes ht r)] at hs
    obtain ⟨header, mid, hheader, hs⟩ := Steps.bind_eq_ok_iff.mp hs
    have hmid := Reading.fieldHeader_shorter hheader
    split at hs
    · rename_i hstop
      obtain ⟨rfl, rfl⟩ := Steps.pure_eq_ok_iff.mp hs
      exact ⟨fun _ htag => htag, fun _ => Reading.skipFields_stop hheader hstop⟩
    · rename_i hstop
      obtain ⟨next, mid', hnext, hs⟩ := Steps.bind_eq_ok_iff.mp hs
      have hmid' := (surveyField_takes ht r header before).length_le hnext
      obtain ⟨hkept, hrest⟩ := ih mid'.length (by omega) hs rfl
      obtain ⟨hadded, hfield⟩ := surveyField_passes h hnext
      refine ⟨fun tag htag => hkept tag (hadded tag htag), fun htags => ?_⟩
      exact Reading.skipFields_field hheader hstop
        (hfield fun tag htag => htags tag (hkept tag htag)) (hrest htags)

end Record

theorem Schema.surveyWithin_endsAs (s : Schema) (c : WireConfig) (levels : Nat) (name : String) :
    EndsAs c .struct (s.surveyWithin c levels name) := by
  induction levels generalizing name with
  | zero => exact fun _ _ _ hs => absurd hs Reading.fail_ne_ok
  | succ levels ih =>
    intro unread tags rest hs htags
    rw [surveyWithin] at hs
    rcases hr : s.record? name with _ | r
    · rw [hr] at hs
      exact absurd hs Steps.throw_ne_ok
    · rw [hr] at hs
      exact Reading.passes_struct
        ((Record.surveyFields_suffices ih (s.surveyWithin_takes c levels) hs).2 htags)

/-! ## Decoding and passing over -/

/-- A struct that was decoded can be surveyed. When every container with elements in it told the
declared tags, passing over the struct with a large enough nesting limit ends at the same place. -/
theorem Machine.skip_of_decode {d : Document} {c : Compiled} (hc : d.compile = .ok c) :
    ∃ s, d.schema = .ok s ∧ ∀ (config : WireConfig) (name : String) (v : StructValue)
      (input rest : Bytes), decode c config name input = .ok v rest →
        ∃ tags, s.survey config name input = .ok tags rest ∧
          ((∀ tag ∈ tags, tag.Holds) → ∃ depth, ∀ limit, depth ≤ limit →
            Reading.skip { config with maxDepth := limit } .struct input = .ok () rest) := by
  obtain ⟨s, hs, hrealizes⟩ := Compiled.realizes_of_compile hc
  refine ⟨s, hs, fun config name v input rest h => ?_⟩
  rw [decode, decodeWithin_eq hrealizes (Nat.le_refl _)] at h
  obtain ⟨tags, htags, -⟩ := s.readWithin_tracks _ config _ name input v rest h
  refine ⟨tags, htags, fun hholds => ?_⟩
  exact (s.surveyWithin_endsAs config _ name input tags rest htags hholds).skip

/-- A shelf with an empty label and with one size, whose elements are told to be of some type. -/
def Document.shelfBytes (element : WireType) : Bytes :=
  [0x0b, 0, 1, 0, 0, 0, 0, 0x0f, 0, 2, element.code, 0, 0, 0, 1, 0, 0, 0, 0, 0]

theorem Machine.skip_of_decode_shelf : ∃ c, Document.shelf.compile = .ok c ∧
    (∃ v, decode c {} "Shelf" (Document.shelfBytes .i32) = .ok v []) ∧
    ∃ depth, ∀ limit, depth ≤ limit →
      Reading.skip { maxDepth := limit } .struct (Document.shelfBytes .i32) = .ok () [] := by
  refine ⟨_, rfl, ⟨_, rfl⟩, ?_⟩
  obtain ⟨s, hs, h⟩ := skip_of_decode (d := Document.shelf) rfl
  cases Document.schema_shelf.symm.trans hs
  obtain ⟨tags, htags, hskip⟩ := h {} "Shelf" _ (Document.shelfBytes .i32) [] rfl
  have hsurvey : Document.shelfSchema.survey {} "Shelf" (Document.shelfBytes .i32) =
      .ok [⟨.i32, .i32⟩] [] := rfl
  cases hsurvey.symm.trans htags
  exact hskip fun tag htag => by
    rw [List.mem_singleton.mp htag]
    rfl

/-- Numbers that are told to be bytes are decoded as numbers of four bytes all the same, while
passing over the struct takes one byte for each and ends before the end of the input. -/
theorem Machine.skip_disagrees_of_byte : ∃ c, Document.shelf.compile = .ok c ∧
    decode c {} "Shelf" (Document.shelfBytes .byte) = .ok ⟨"Shelf",
      [("label", .string ""), ("room", .i32 7), ("sizes", .list [.i32 0])]⟩ [] ∧
    ∀ limit, 3 ≤ limit → Reading.skip { maxDepth := limit } .struct (Document.shelfBytes .byte) =
      .ok () [0, 0, 0] := by
  refine ⟨_, rfl, rfl, fun limit hlimit => ?_⟩
  have hskip : Reading.skipWithin {} 3 .struct (Document.shelfBytes .byte) =
      .ok () [0, 0, 0] := rfl
  rw [Reading.skip, Reading.skipWithin_maxDepth {} limit]
  exact (Reading.skipWithin_deepens {} .struct).ok hlimit hskip

end Thrift
