-- What encode and construction ask of the fields of a struct. Encode looks at all declared fields
-- and construction only at those that have bytes, so they part where a field is void.
import Thrift.Proofs.Conformance
import Thrift.Proofs.DecodeRefines

namespace Thrift

/-! ## The two checks -/

/-- The statement asks which fields are set, and does nothing else. -/
def Stmt.checksPresence : Stmt → Bool
  | .requireSingleField _ _ _ => true
  | .requirePresent _ _ => true
  | _ => false

namespace StructCodec

/-- The checks of the encode procedure let an instance pass. -/
def Admits (codec : StructCodec) (nested : Machine.Nested) (v : StructValue) : Prop :=
  ∃ s, (Machine.encodeBlock nested (codec.encode.filter (·.checksPresence)) ⟨v, []⟩).outcome =
    .ok s

/-- The fields of an instance that are sent: those that are set and not void. -/
def sentOf (codec : StructCodec) (v : StructValue) : List (String × Value) :=
  (codec.fields.filter (!·.isVoid)).filterMap fun l => (v.held? l.name).map (l.name, ·)

/-- What the decode procedure builds a struct from. -/
def inits (codec : StructCodec) : List FieldInit :=
  (codec.fields.filter (!·.isVoid)).map (·.toInit)

/-- A struct can be built from the fields of an instance that are sent. -/
def Rebuilds (codec : StructCodec) (v : StructValue) : Prop :=
  ∃ w, Machine.build codec.name codec.kind codec.inits (codec.sentOf v) = .ok w

/-- No void member of a union is set, so what is set is what is sent. -/
def NoVoidChosen (codec : StructCodec) (v : StructValue) : Prop :=
  codec.kind = .union → ∀ l ∈ codec.fields, l.isVoid = true → v.held? l.name = none

/-- Void fields that are required are set, though nothing of them is sent. -/
def VoidsGiven (codec : StructCodec) (v : StructValue) : Prop :=
  ∀ l ∈ codec.fields, l.isVoid = true → l.isRequired = true → (v.held? l.name).isSome

/-- Encode and construction judge an instance alike, up to its void fields. -/
structure JudgesAlike (codec : StructCodec) (nested : Machine.Nested) (v : StructValue) :
    Prop where
  /-- Nothing is sent that the checks do not let pass. -/
  admits_of_sent : ∀ s, (Machine.encodeBlock nested codec.encode ⟨v, []⟩).outcome = .ok s →
    codec.Admits nested v
  rebuilds_iff : codec.Admits nested v → (codec.Rebuilds v ↔ codec.NoVoidChosen v)
  admits_iff : codec.Rebuilds v →
    (codec.Admits nested v ↔ codec.VoidsGiven v ∧ codec.NoVoidChosen v)
  alike : codec.VoidsGiven v → codec.NoVoidChosen v → (codec.Admits nested v ↔ codec.Rebuilds v)

end StructCodec

/-! ## What is sent -/

namespace StructCodec

/-- Under the name of a field stands the value that the field has, if it has one. -/
theorem lookup_heldOf (v : StructValue) {fields : List FieldLayout} {l : FieldLayout}
    (hl : l ∈ fields) :
    (fields.filterMap fun f => (v.held? f.name).map (f.name, ·)).lookup l.name =
      v.held? l.name := by
  induction fields with
  | nil => cases hl
  | cons f fields ih =>
    rcases hf : v.held? f.name with _ | w
    · rw [List.filterMap_cons_none (by rw [hf]; rfl)]
      rcases List.mem_cons.mp hl with rfl | hl
      · -- Another field of the name has no value either.
        rw [hf, List.lookup_eq_none_iff]
        intro e he
        obtain ⟨g, -, hg⟩ := List.mem_filterMap.mp he
        obtain ⟨w, hw, rfl⟩ := Option.map_eq_some_iff.mp hg
        refine bne_iff_ne.mpr fun heq => ?_
        cases hw.symm.trans ((congrArg v.held? heq.symm).trans hf)
      · exact ih hl
    · rw [List.filterMap_cons_some (by rw [hf]; rfl)]
      by_cases hname : l.name = f.name
      · rw [hname, hf, lookup_cons_self]
      · rw [lookup_cons_ne hname]
        refine ih ?_
        rcases List.mem_cons.mp hl with rfl | hl
        · exact absurd rfl hname
        · exact hl

end StructCodec

/-! ## What encode checks -/

theorem Writing.Agree.succeeds_iff {α β : Type} {R : α → β → Prop} {w : Writing α} {u : Writing β}
    (h : Agree R w u) : (∃ a, w.outcome = .ok a) ↔ ∃ b, u.outcome = .ok b := by
  have ho := h.outcome
  generalize w.outcome = x, u.outcome = y at ho ⊢
  cases ho with
  | ok h => exact iff_of_true ⟨_, rfl⟩ ⟨_, rfl⟩
  | error => simp

/-- A run that ends well has done its first part well. -/
theorem Writing.succeeds_of_bind {α β : Type} {w : Writing α} {f : α → Writing β} {b : β}
    (h : (w >>= f).outcome = .ok b) : ∃ a, w.outcome = .ok a := by
  rcases hw : w.outcome with fault | a
  · rw [bind_of_error hw] at h
    cases h
  · exact ⟨a, rfl⟩

namespace Realizes

variable {codec : StructCodec} {r : Record}

/-- The checks stand in front of the procedure, and nothing behind them checks. -/
theorem filter_checksPresence (h : Realizes codec r) :
    codec.encode.filter (·.checksPresence) =
      StructCodec.checks codec.kind codec.name codec.fields := by
  obtain ⟨stmts, hstmts, hencode⟩ := h.encode
  have hmembers : stmts.filter (·.checksPresence) = [] := by
    refine List.filter_eq_nil_iff.mpr fun stmt hstmt => ?_
    obtain ⟨m, -, hm⟩ := Steps.forall₂_mem_right hstmts hstmt
    cases hm
    exact Bool.false_ne_true
  have hchecks : ∀ stmt ∈ StructCodec.checks r.kind r.name codec.fields,
      stmt.checksPresence = true := by
    intro stmt hstmt
    rcases List.mem_append.mp hstmt with hunion | hset
    · split at hunion
      · cases List.mem_singleton.mp hunion
        rfl
      · cases hunion
    · obtain ⟨l, -, rfl⟩ := List.mem_map.mp hset
      rfl
  rw [hencode, List.filter_append, List.filter_append, List.filter_append, hmembers,
    List.filter_eq_self.mpr hchecks, h.kind_eq, h.name_eq]
  simp [Stmt.checksPresence]

/-- What encode checks, in terms of the fields. -/
theorem admits_iff (h : Realizes codec r) (nested : Machine.Nested) (v : StructValue) :
    codec.Admits nested v ↔
      (∀ l ∈ codec.fields, l.isRequired = true → (v.held? l.name).isSome) ∧
        (codec.kind = .union → codec.fields.countP (fun l => (v.held? l.name).isSome) = 1) := by
  have hrun := @Machine.checks_agree nested codec r h.laidOut ⟨v, []⟩
  have hsucceeds : codec.Admits nested v ↔
      (r.checkUnion v >>= fun _ => Record.checkSet v (r.members.filter (·.required))).Succeeds := by
    rw [StructCodec.Admits, h.filter_checksPresence, h.kind_eq, h.name_eq]
    exact hrun.succeeds_iff.symm.trans ⟨fun ⟨_, ha⟩ => ha, fun ha => ⟨(), ha⟩⟩
  have hcount : codec.fields.countP (fun l => (v.held? l.name).isSome) =
      r.members.countP (fun m => (v.held? m.name).isSome) := by
    have hnames := Steps.map_eq_of_forall₂ h.laidOut fun _ _ hl => hl.name_eq
    have hsame := congrArg (List.countP fun name => (v.held? name).isSome) hnames
    rwa [List.countP_map, List.countP_map] at hsame
  rw [hsucceeds, Writing.succeeds_bind_iff, Record.checkUnion_succeeds_iff,
    Record.checkSet_succeeds_iff, hcount, h.kind_eq, and_comm]
  refine and_congr_left fun _ => ⟨fun hset l hl hrequired => ?_, fun hset m hm => ?_⟩
  · obtain ⟨m, hm, hlm⟩ := Steps.forall₂_mem_left h.laidOut hl
    rw [hlm.name_eq]
    exact hset m (List.mem_filter.mpr ⟨hm, hlm.required_eq ▸ hrequired⟩)
  · obtain ⟨hm, hrequired⟩ := List.mem_filter.mp hm
    obtain ⟨l, hl, hlm⟩ := Steps.forall₂_mem_right h.laidOut hm
    rw [← hlm.name_eq]
    exact hset l hl (hlm.required_eq.trans hrequired)

/-- What is sent has passed the checks. -/
theorem admits_of_sent (h : Realizes codec r) {nested : Machine.Nested} {v : StructValue}
    {s : Machine.Sight} (hs : (Machine.encodeBlock nested codec.encode ⟨v, []⟩).outcome = .ok s) :
    codec.Admits nested v := by
  obtain ⟨stmts, -, hencode⟩ := h.encode
  rw [hencode, List.append_assoc, List.append_assoc, Machine.encodeBlock_append] at hs
  rw [StructCodec.Admits, h.filter_checksPresence, h.kind_eq, h.name_eq]
  exact Writing.succeeds_of_bind hs

end Realizes

/-! ## What construction checks -/

namespace StructCodec

/-- What construction checks, in terms of the fields. -/
theorem rebuilds_iff (codec : StructCodec) (v : StructValue) :
    codec.Rebuilds v ↔
      (∀ l ∈ codec.fields, l.isVoid = false → l.isRequired = true → (v.held? l.name).isSome) ∧
        (codec.kind = .union →
          (codec.fields.filter (!·.isVoid)).countP (fun l => (v.held? l.name).isSome) = 1) := by
  have hlookup : ∀ l ∈ codec.fields.filter (!·.isVoid),
      (codec.sentOf v).lookup l.name = v.held? l.name := fun _ hl => lookup_heldOf v hl
  have hcount : codec.inits.countP (fun f => ((codec.sentOf v).lookup f.name).isSome) =
      (codec.fields.filter (!·.isVoid)).countP (fun l => (v.held? l.name).isSome) := by
    rw [inits, List.countP_map]
    refine List.countP_congr fun l hl => ?_
    simp only [Function.comp_apply, FieldLayout.toInit, hlookup l hl]
  unfold Rebuilds
  simp only [Machine.build_eq_ok_iff, hcount, exists_and_left, exists_eq', and_true]
  refine and_congr_left fun _ => ?_
  rw [inits, List.forall_mem_map]
  refine ⟨fun h l hl hvoid hrequired => ?_, fun h l hl hrequired => ?_⟩
  · have hsent : l ∈ codec.fields.filter (!·.isVoid) := List.mem_filter.mpr ⟨hl, by simp [hvoid]⟩
    rw [← hlookup l hsent]
    exact h l hsent hrequired
  · obtain ⟨hmem, hvoid⟩ := List.mem_filter.mp hl
    change ((codec.sentOf v).lookup l.name).isSome
    rw [hlookup l hl]
    exact h l hmem (by simpa using hvoid) hrequired

/-- The fields that are set are those that are sent and the void ones. -/
theorem countP_held (codec : StructCodec) (v : StructValue) :
    codec.fields.countP (fun l => (v.held? l.name).isSome) =
      (codec.fields.filter (!·.isVoid)).countP (fun l => (v.held? l.name).isSome) +
        (codec.fields.filter (·.isVoid)).countP (fun l => (v.held? l.name).isSome) := by
  rw [Nat.add_comm, List.countP_eq_countP_filter_add codec.fields _ (·.isVoid)]

theorem countP_void_eq_zero_iff {codec : StructCodec} {v : StructValue} :
    (codec.fields.filter (·.isVoid)).countP (fun l => (v.held? l.name).isSome) = 0 ↔
      ∀ l ∈ codec.fields, l.isVoid = true → v.held? l.name = none := by
  rw [List.countP_eq_zero]
  simp only [List.mem_filter, and_imp, Option.not_isSome_iff_eq_none]

end StructCodec

/-! ## Agreement -/

/-- The members of a union that are set are counted with the void ones before sending and without
them before building, so one condition follows from the other when no void one is set. -/
theorem Realizes.judgesAlike {codec : StructCodec} {r : Record} (h : Realizes codec r)
    (nested : Machine.Nested) (v : StructValue) : codec.JudgesAlike nested v := by
  have hcount := codec.countP_held v
  have hrebuilds : codec.Admits nested v → (codec.Rebuilds v ↔ codec.NoVoidChosen v) := by
    intro hadmits
    obtain ⟨hset, hsingle⟩ := (h.admits_iff nested v).mp hadmits
    rw [codec.rebuilds_iff v, and_iff_right fun l hl _ hrequired => hset l hl hrequired]
    refine forall_congr' fun hunion => ?_
    rw [← StructCodec.countP_void_eq_zero_iff]
    have hone := hsingle hunion
    omega
  have hadmits : codec.Rebuilds v →
      (codec.Admits nested v ↔ codec.VoidsGiven v ∧ codec.NoVoidChosen v) := by
    intro hrebuilds
    obtain ⟨hset, hsingle⟩ := (codec.rebuilds_iff v).mp hrebuilds
    rw [h.admits_iff nested v]
    refine and_congr ⟨fun hall l hl _ => hall l hl, fun hvoids l hl hrequired => ?_⟩ ?_
    · rcases hvoid : l.isVoid with _ | _
      · exact hset l hl hvoid hrequired
      · exact hvoids l hl hvoid hrequired
    · refine forall_congr' fun hunion => ?_
      rw [← StructCodec.countP_void_eq_zero_iff]
      have hone := hsingle hunion
      omega
  refine ⟨fun _ hs => h.admits_of_sent hs, hrebuilds, hadmits, fun hgiven hchosen => ⟨?_, ?_⟩⟩
  · exact fun ha => (hrebuilds ha).mpr hchosen
  · exact fun hr => (hadmits hr).mpr ⟨hgiven, hchosen⟩

/-- In a compiled document, what encode lets pass can be built again from what is sent of it unless
a void member of a union was chosen, and what can be built again is let pass when, besides, the
required void fields are set. -/
theorem Compiled.presence_agrees {d : Document} {c : Compiled} (hc : d.compile = .ok c)
    {codec : StructCodec} (hcodec : codec ∈ c.structs) :
    (∃ before, codec.decode = before ++ [.construct codec.name codec.kind codec.inits]) ∧
      ∀ nested v, codec.JudgesAlike nested v := by
  obtain ⟨s, -, hrealizes⟩ := Compiled.realizes_of_compile hc
  obtain ⟨r, -, hr⟩ := Steps.forall₂_mem_left hrealizes hcodec
  obtain ⟨cases, -, hdecode⟩ := hr.decode
  refine ⟨⟨[.readStructBegin, .loop (StructCodec.fieldLoop cases), .readStructEnd], ?_⟩,
    hr.judgesAlike⟩
  rw [hdecode, hr.name_eq, hr.kind_eq]
  rfl

/-! ## Void members -/

namespace Document

/-- A union in which one of the members is void, and a struct that requires a void. -/
def voidForms : Document :=
  ⟨[.structLike .union ⟨"Choice", [⟨"nothing", some 1, .void, .default, none, none⟩,
      ⟨"some", some 2, .i32, .default, none, none⟩]⟩,
    .structLike .struct ⟨"Slip", [⟨"mark", some 1, .void, .required, none, none⟩]⟩]⟩

/-- The codecs of the document with void members. -/
def voidCodecs : Compiled :=
  match voidForms.compile with
  | .ok c => c
  | .error _ => ⟨[], []⟩

theorem compile_voidForms : voidForms.compile = .ok voidCodecs := rfl

/-- A choice of the void member, which has a value though none is sent. -/
def chosenVoid : StructValue := ⟨"Choice", [("nothing", .bool true)]⟩

/-- A choice of the other member. -/
def chosenNumber : StructValue := ⟨"Choice", [("some", .i32 5)]⟩

end Document

/-- A choice of a number is let pass, so it can be built again. -/
theorem Compiled.presence_agrees_choice : Document.voidForms.compile = .ok Document.voidCodecs ∧
    ∃ choice ∈ Document.voidCodecs.structs, choice.name = "Choice" ∧
      choice.NoVoidChosen Document.chosenNumber ∧ choice.Rebuilds Document.chosenNumber ∧
        ∀ nested, choice.Admits nested Document.chosenNumber := by
  obtain ⟨choice, hchoice, hname, hvoid, hadmits⟩ : ∃ choice ∈ Document.voidCodecs.structs,
      choice.name = "Choice" ∧ choice.NoVoidChosen Document.chosenNumber ∧
        ∀ nested, choice.Admits nested Document.chosenNumber := by
    refine ⟨_, List.mem_cons_self, rfl, fun _ => ?_, fun _ => ⟨_, rfl⟩⟩
    exact List.forall_mem_cons.mpr ⟨fun _ => rfl, List.forall_mem_singleton.mpr nofun⟩
  obtain ⟨-, halike⟩ := Compiled.presence_agrees Document.compile_voidForms hchoice
  have hrebuilds := ((halike (fun _ _ => .done ()) _).rebuilds_iff (hadmits _)).mpr hvoid
  exact ⟨Document.compile_voidForms, choice, hchoice, hname, hvoid, hrebuilds, hadmits⟩

/-- A choice of the void member is sent and cannot be decoded, and a slip without its mark is
decoded and cannot be sent. -/
theorem Compiled.presence_parts_at_voids :
    Document.voidForms.compile = .ok Document.voidCodecs ∧
      (∃ choice ∈ Document.voidCodecs.structs, choice.name = "Choice" ∧
        (∀ nested, choice.Admits nested Document.chosenVoid) ∧
          ¬ choice.Rebuilds Document.chosenVoid) ∧
      (∃ slip ∈ Document.voidCodecs.structs, slip.name = "Slip" ∧
        slip.Rebuilds (.empty "Slip") ∧
          ∀ nested, ¬ slip.Admits nested (.empty "Slip")) ∧
      Machine.encode Document.voidCodecs {} Document.chosenVoid = ⟨[0], .ok ()⟩ ∧
      Machine.decode Document.voidCodecs {} "Choice" [0] =
        .error (.protocol (.emptyUnion "Choice")) [] ∧
      Machine.decode Document.voidCodecs {} "Slip" [0] = .ok (.empty "Slip") [] ∧
      Machine.encode Document.voidCodecs {} (.empty "Slip") = Writing.fail (.unsetField "mark") := by
  refine ⟨Document.compile_voidForms, ⟨_, List.mem_cons_self, rfl, fun _ => ⟨_, rfl⟩, ?_⟩,
    ⟨_, List.mem_cons_of_mem _ List.mem_cons_self, rfl, ⟨_, rfl⟩, ?_⟩, rfl, rfl, rfl, rfl⟩
  · rintro ⟨w, hw⟩
    cases hw
  · rintro nested ⟨s, hs⟩
    cases hs

end Thrift
