-- Running a compiled document decodes what its schema tells, once round by round of the field
-- loop and once level by level of the structs inside of structs.
import Thrift.Proofs.Loading

namespace Thrift

namespace Machine

open Reading (Agree)

/-! ## Fields -/

open StructCodec (headerName)

/-- The finished fields of a frame are those that a direct reading found. -/
def Staged (found : List (String × Value)) (f : Frame) : Prop :=
  ∀ name, f.staged.lookup name = found.lookup name

theorem Staged.stage {found : List (String × Value)} {f : Frame} (h : Staged found f)
    (name : String) (v : Value) : Staged ((name, v) :: found) (f.stage name v) := by
  intro y
  by_cases hy : y = name
  · subst hy
    rw [lookup_cons_self]
    exact Fields.lookup_insert_self y v f.staged
  · rw [lookup_cons_ne hy, ← h y]
    exact Fields.lookup_insert_ne hy v f.staged

theorem Staged.of_eq {found : List (String × Value)} {f f' : Frame} (h : Staged found f)
    (he : f'.staged = f.staged) : Staged found f' := fun y => by rw [he, h y]

/-- The block went on, and what it finished is what was found. -/
inductive GoesOn (found : List (String × Value)) : Flow → Prop
  | mk {f : Frame} (h : Staged found f) : GoesOn found (.next f)

theorem skip_agree {s : Surroundings} {header : Reading.FieldHeader} {f : Frame}
    {found : List (String × Value)} (hh : f.get? headerName = some (.header header))
    (hf : Staged found f) :
    Agree GoesOn (do Reading.skip s.config header.type; return found)
      (decodeBlock s [.skip headerName] f) := by
  rw [decodeBlock_singleton, decodeStmt, headerOf, hh]
  exact (Agree.refl (Reading.skip s.config header.type)).bind fun _ _ _ => .pure ⟨hf⟩

/-- A void has no bytes, so passing over it changes nothing. -/
theorem skip_void {c : WireConfig} (hc : 0 < c.maxDepth) : Reading.skip c .void = pure () := by
  obtain ⟨n, hn⟩ : ∃ n, c.maxDepth = n + 1 := ⟨c.maxDepth - 1, by omega⟩
  rw [Reading.skip, hn]
  rfl

theorem case_agree {s : Surroundings} {m : Member} {case : Int16 × List Stmt}
    (h : LoadsCase m case) (hc : 0 < s.config.maxDepth) {header : Reading.FieldHeader} {f : Frame}
    {found : List (String × Value)} (hh : f.get? headerName = some (.header header))
    (hf : Staged found f) :
    Agree GoesOn (m.readValue s.config s.nested header found) (decodeBlock s case.2 f) := by
  cases h with
  | void hm =>
    rw [decodeBlock_singleton, decodeStmt, headerOf, hh, pure_bind, Member.readValue, hm,
      Form.wireType]
    split
    · rename_i htype
      rw [Member.isVoid, hm, beq_self_eq_true, if_pos rfl, decodeBlock_singleton, decodeStmt,
        headerOf, hh, pure_bind, htype, skip_void hc, pure_bind]
      exact .pure ⟨hf⟩
    · exact skip_agree hh hf
  | @value x code hm hl =>
    rw [decodeBlock_singleton, decodeStmt, headerOf, hh, pure_bind, Member.readValue]
    split
    · have hvoid : m.isVoid = false := beq_false_of_ne hm
      rw [hvoid, if_neg Bool.false_ne_true, decodeBlock_append]
      refine (loads_agree hl hm f).bind fun v flow hflow => ?_
      obtain ⟨hv, hchanges⟩ := hflow
      simp only [decodeBlock_singleton, decodeStmt, takeValue_eq hv, pure_bind]
      exact .pure ⟨(hf.of_eq hchanges.staged_eq).stage m.name v⟩
    · exact skip_agree hh hf

/-- The case of an id is the one of the first member with the id. -/
theorem decodeCase_find {s : Surroundings} {ms : List Member} {cases : List (Int16 × List Stmt)}
    (h : List.Forall₂ LoadsCase ms cases) (id : Int16) (f : Frame) :
    (ms.find? (·.id == id) = none ∧ decodeCase s id cases f = none) ∨
      ∃ m case, ms.find? (·.id == id) = some m ∧ LoadsCase m case ∧
        decodeCase s id cases f = some (decodeBlock s case.2 f) := by
  induction h with
  | nil => exact .inl ⟨rfl, by rw [decodeCase]⟩
  | @cons m case ms cases hm _ ih =>
    obtain ⟨n, body⟩ := case
    have hid : n = m.id := by
      cases hm <;> rfl
    rw [decodeCase]
    by_cases hn : m.id = id
    · exact .inr ⟨m, (n, body), by simp [hn], hm, by rw [if_pos (hid.trans hn)]⟩
    · have hne : ¬ n = id := fun he => hn (hid.symm.trans he)
      rw [if_neg hne, List.find?_cons_of_neg (by simpa using hn)]
      exact ih

/-- How a round of the field loop ends: at the end of the struct, or behind one more field. -/
inductive RoundEnds (found : List (String × Value)) :
    Option (List (String × Value)) → Flow → Prop
  | stop {f : Frame} (h : Staged found f) : RoundEnds found none (.leave f)
  | field {found' : List (String × Value)} {f : Frame} (h : Staged found' f) :
      RoundEnds found (some found') (.next f)

/-- The fields of a round that found no end, by the case of the header's id. -/
theorem field_agree {s : Surroundings} {r : Record} {cases : List (Int16 × List Stmt)}
    (h : List.Forall₂ LoadsCase r.members cases) (hc : 0 < s.config.maxDepth)
    {header : Reading.FieldHeader} {f : Frame} {found : List (String × Value)}
    (hh : f.get? headerName = some (.header header)) (hf : Staged found f) :
    Agree GoesOn (r.readField s.config s.nested header found)
      (decodeBlock s [.switch headerName cases [.skip headerName], .readFieldEnd] f) := by
  have hend : ∀ stmt, Agree GoesOn (r.readField s.config s.nested header found)
      (decodeStmt s stmt f) → Agree GoesOn (r.readField s.config s.nested header found)
      (decodeBlock s [stmt, .readFieldEnd] f) := by
    intro stmt hm
    rw [decodeBlock, ← bind_pure (r.readField s.config s.nested header found)]
    refine hm.bind fun found' flow hflow => ?_
    obtain ⟨hf'⟩ := hflow
    exact .pure ⟨hf'⟩
  apply hend
  rw [decodeStmt, headerOf, hh, pure_bind, Record.readField]
  rcases decodeCase_find (s := s) h header.id f with ⟨hnone, hcase⟩ | ⟨m, case, hsome, hm, hcase⟩
  · rw [hnone, hcase]
    exact skip_agree hh hf
  · rw [hsome, hcase]
    exact case_agree hm hc hh hf

theorem round_agree {s : Surroundings} {r : Record} {cases : List (Int16 × List Stmt)}
    (h : List.Forall₂ LoadsCase r.members cases) (hc : 0 < s.config.maxDepth) {f : Frame}
    {found : List (String × Value)} (hf : Staged found f) :
    Agree (RoundEnds found)
      (Reading.oneField (r.readField s.config s.nested) found)
      (decodeBlock s (StructCodec.fieldLoop cases) f) := by
  rw [Reading.oneField, StructCodec.fieldLoop, decodeBlock, decodeStmt, bind_assoc]
  refine (Agree.refl Reading.fieldHeader).bind fun header _ hheader => ?_
  subst hheader
  have hh : (f.bind headerName (.header header)).get? headerName = some (.header header) :=
    Frame.get?_bind_self _ _ _
  rw [pure_bind]
  dsimp only
  rw [decodeBlock, decodeStmt, headerOf, hh, pure_bind, pure_bind]
  split
  · exact .pure (.stop hf)
  · rw [map_eq_pure_bind]
    refine (field_agree h hc hh hf).bind_pure_left fun found' flow hflow => ?_
    obtain ⟨hf'⟩ := hflow
    exact .field hf'

/-- The loop reads the fields up to the end of the struct. The induction is on the bound of the
rounds, which every round that goes on stays below because it takes bytes. -/
theorem loop_agree {s : Surroundings} {r : Record} {cases : List (Int16 × List Stmt)}
    (h : List.Forall₂ LoadsCase r.members cases) (hc : 0 < s.config.maxDepth)
    (ht : ∀ name, Reading.Takes (s.nested name)) (n : Nat) {unread : Bytes}
    (hn : unread.length < n) {f : Frame} {found : List (String × Value)} (hf : Staged found f) :
    Reading.EndAlike GoesOn (Reading.fields (r.readField s.config s.nested) found unread)
      (roundsUntilLeft (decodeBlock s (StructCodec.fieldLoop cases)) n f unread) := by
  have htakes := Record.readField_takes (c := s.config) ht r
  induction n generalizing unread f found with
  | zero => omega
  | succ n ih =>
    rw [Reading.fields_eq_oneField htakes, roundsUntilLeft]
    have hround := round_agree h hc hf unread
    generalize hx : Reading.oneField (r.readField s.config s.nested) found unread = x at hround
    generalize hy : decodeBlock s (StructCodec.fieldLoop cases) f unread = y at hround
    cases hround with
    | error =>
      rw [Steps.bind_error hx, Steps.bind_error hy]
      exact .error
    | ok hends =>
      rw [Steps.bind_ok hx, Steps.bind_ok hy]
      cases hends with
      | stop hf' => exact .ok ⟨hf'⟩
      | field hf' =>
        have hrest := Reading.oneField_shorter htakes hx
        exact ih (by omega) hf'

/-- There are more rounds than unread bytes. -/
theorem length_lt_roundLimit (body : List Stmt) (unread : Bytes) :
    unread.length < roundLimit body unread := by
  have h := Nat.mul_le_mul_left (unread.length + 1)
    (show 1 ≤ (Stmt.walkAll body).length + 2 by omega)
  unfold roundLimit
  omega

theorem loopStmt_agree {s : Surroundings} {r : Record} {cases : List (Int16 × List Stmt)}
    (h : List.Forall₂ LoadsCase r.members cases) (hc : 0 < s.config.maxDepth)
    (ht : ∀ name, Reading.Takes (s.nested name)) {f : Frame} {found : List (String × Value)}
    (hf : Staged found f) :
    Agree GoesOn (Reading.fields (r.readField s.config s.nested) found)
      (decodeStmt s (.loop (StructCodec.fieldLoop cases)) f) := by
  intro unread
  rw [decodeStmt]
  exact loop_agree h hc ht _ (length_lt_roundLimit _ unread) hf

/-! ## Structs -/

/-- Filling fields, one after the other. -/
def fill : List FieldInit → List (String × Value) → List (String × Value) → List (String × Value)
  | [], set, _ => set
  | f :: fs, set, left =>
    match left.lookup f.name, f.default with
    | some v, _ => fill fs (Fields.insert f.name v set) (Fields.erase f.name left)
    | none, some v => fill fs (Fields.insert f.name v set) left
    | none, none => fill fs set left

theorem filled_eq_fill (inits : List FieldInit) (staged : List (String × Value)) :
    filled inits staged = fill inits [] staged := by
  unfold filled
  generalize ([] : List (String × Value)) = set
  induction inits generalizing set staged with
  | nil => rfl
  | cons init inits ih =>
    rw [List.foldl_cons, fill]
    dsimp only
    rcases staged.lookup init.name with _ | v
    · rcases init.default with _ | v
      · exact ih staged set
      · exact ih staged _
    · exact ih _ _

theorem fill_congr (inits : List FieldInit) (set : List (String × Value))
    {found staged : List (String × Value)}
    (h : ∀ name, staged.lookup name = found.lookup name) :
    fill inits set staged = fill inits set found := by
  induction inits generalizing set found staged with
  | nil => rfl
  | cons init inits ih =>
    rw [fill, fill, h init.name]
    split
    · refine ih _ fun name => ?_
      by_cases hname : name = init.name
      · subst hname
        rw [Fields.lookup_erase_self, Fields.lookup_erase_self]
      · rw [Fields.lookup_erase_ne hname, Fields.lookup_erase_ne hname, h name]
    · exact ih _ h
    · exact ih set h

/-- Building a struct looks at the finished fields by their names only. -/
theorem build_congr (struct : String) (kind : StructKind) (inits : List FieldInit)
    {found staged : List (String × Value)}
    (h : ∀ name, staged.lookup name = found.lookup name) :
    build struct kind inits staged = build struct kind inits found := by
  unfold build
  simp only [h, filled_eq_fill, fill_congr inits [] h]

theorem inits_eq {fields : List FieldLayout} {ms : List Member}
    (h : List.Forall₂ LaidOut fields ms) :
    (fields.filter (!·.isVoid)).map (·.toInit) =
      (ms.filter (!·.isVoid)).map Member.toInit := by
  induction h with
  | nil => rfl
  | @cons l m fields ms hl _ ih =>
    rw [List.filter_cons, List.filter_cons, hl.isVoid_eq]
    split
    · rw [List.map_cons, List.map_cons, ih, FieldLayout.toInit, Member.toInit, hl.name_eq,
        hl.id_eq, hl.required_eq, hl.default_eq]
    · exact ih

/-- What is done behind the last field: the struct is built. -/
theorem construct_eq (s : Surroundings) {r : Record} {f : Frame} {found : List (String × Value)}
    (hf : Staged found f) :
    decodeBlock s [.readStructEnd, .construct r.name r.kind (r.sent.map Member.toInit)] f =
      match Record.built r found with
      | .ok v => return .finished v
      | .error cause => Reading.fail cause := by
  rw [decodeBlock, decodeStmt, pure_bind]
  dsimp only
  rw [decodeBlock_singleton, decodeStmt, build_congr _ _ _ hf]
  rfl

/-- Running the codec of a record reads the record. -/
theorem runDecode_eq {codec : StructCodec} {r : Record} (h : Realizes codec r)
    {c : WireConfig} {nested : String → Reading StructValue} (hc : 0 < c.maxDepth)
    (ht : ∀ name, Reading.Takes (nested name)) :
    runDecode ⟨c, nested⟩ codec = r.read Record.built c nested := by
  obtain ⟨cases, hcases, hdecode⟩ := h.decode
  rw [runDecode, hdecode, StructCodec.decodeProcedure, inits_eq h.laidOut, ← Record.sent,
    Record.read, decodeBlock, decodeStmt, pure_bind]
  dsimp only
  rw [decodeBlock, bind_assoc]
  refine (Agree.bind (loopStmt_agree hcases hc ht (f := Frame.empty) fun _ => rfl)
    fun found flow hflow => ?_).eq.symm
  obtain ⟨hf⟩ := hflow
  dsimp only
  rw [construct_eq _ hf]
  rcases r.built found with cause | v
  · exact .fail cause
  · exact .pure rfl

/-- A compiled document decodes a struct as its schema tells. No field names need to differ for
this; with equal names, construction takes a finished field only once. -/
theorem decodeWithin_eq {d : Compiled} {s : Schema} (h : d.RealizesSchema s) {c : WireConfig}
    {levels : Nat} (hl : levels ≤ c.maxDepth) (name : String) :
    decodeWithin d c levels name = s.readWithin Record.built c levels name := by
  induction levels generalizing name with
  | zero => rfl
  | succ levels ih =>
    have hnested : decodeWithin d c levels = s.readWithin Record.built c levels :=
      funext fun name => ih (by omega) name
    rw [decodeWithin, Schema.readWithin, hnested]
    rcases h.find name with ⟨hd, hs⟩ | ⟨codec, r, hd, hs, hr⟩
    · rw [hd, hs]
    · rw [hd, hs]
      exact runDecode_eq hr (by omega) (s.readWithin_takes Record.built c levels)

end Machine

/-! ## Distinct names -/

/-- No struct that is sent has two fields of one name. -/
def Document.NamesDistinct (d : Document) : Prop :=
  ∀ carrier ∈ d.carriers, (carrier.2.fields.map (·.name)).Nodup

theorem Member.name_of_ofField {t : SymbolTable} {struct : String} {f : Field} {m : Member}
    (h : Member.ofField t struct f = .ok m) : m.name = f.name := by
  unfold Member.ofField at h
  split at h
  · cases h
  · obtain ⟨default, -, h⟩ := Steps.except_bind_eq_ok_iff.mp h
    obtain ⟨form, -, h⟩ := Steps.except_bind_eq_ok_iff.mp h
    cases h
    rfl

theorem Record.names_of_ofDefinition {t : SymbolTable} {d : StructKind × StructLike} {r : Record}
    (h : Record.ofDefinition t d = .ok r) : r.members.map (·.name) = d.2.fields.map (·.name) := by
  obtain ⟨ms, hms, h⟩ := Steps.except_bind_eq_ok_iff.mp h
  cases h
  exact (Steps.map_eq_of_forall₂ (Steps.mapM_eq_ok_iff.mp hms) fun _ _ h =>
    (Member.name_of_ofField h).symm).symm

theorem Document.names_of_schema {d : Document} {s : Schema} (h : d.schema = .ok s)
    (hd : d.NamesDistinct) : ∀ r ∈ s.records, (r.members.map (·.name)).Nodup := by
  obtain ⟨t, -, hrs⟩ := schema_eq_ok_iff.mp h
  intro r hr
  obtain ⟨carrier, hcarrier, hdef⟩ := Steps.forall₂_mem_right (Steps.mapM_eq_ok_iff.mp hrs) hr
  rw [Record.names_of_ofDefinition hdef]
  exact hd carrier hcarrier

theorem Machine.fill_eq_foldl {ms : List Member} (h : (ms.map (·.name)).Nodup)
    {found left : List (String × Value)}
    (hl : ∀ m ∈ ms, left.lookup m.name = found.lookup m.name) (set : List (String × Value)) :
    fill (ms.map Member.toInit) set left = ms.foldl (fun set m =>
      match (found.lookup m.name).or m.default with
      | some v => Fields.insert m.name v set
      | none => set) set := by
  induction ms generalizing left set with
  | nil => rfl
  | cons m ms ih =>
    obtain ⟨hm, hms⟩ := List.nodup_cons.mp h
    have hrest : ∀ m' ∈ ms, left.lookup m'.name = found.lookup m'.name :=
      fun m' hm' => hl m' (List.mem_cons_of_mem m hm')
    have hfirst : left.lookup m.toInit.name = found.lookup m.name := hl m List.mem_cons_self
    rw [List.map_cons, List.foldl_cons, fill, hfirst]
    rcases found.lookup m.name with _ | v
    · have hdefault : m.toInit.default = m.default := rfl
      rw [hdefault]
      rcases m.default with _ | v
      · exact ih hms hrest set
      · exact ih hms hrest (Fields.insert m.name v set)
    · refine ih hms (fun m' hm' => ?_) _
      have hne : m'.name ≠ m.name := by
        intro he
        exact hm (List.mem_map.mpr ⟨m', hm', he⟩)
      rw [← hrest m' hm']
      exact Fields.lookup_erase_ne hne left

/-- Where names are distinct, construction finishes a struct as the schema tells. -/
theorem Record.built_eq_finish {r : Record} (h : (r.members.map (·.name)).Nodup)
    (found : List (String × Value)) : r.built found = r.finish found := by
  have hsent : (r.sent.map (·.name)).Nodup := h.sublist (List.filter_sublist.map _)
  have hfilled : Machine.filled (r.sent.map Member.toInit) found =
      r.collect fun m => found.lookup m.name := by
    rw [Machine.filled_eq_fill]
    exact Machine.fill_eq_foldl hsent (fun _ _ => rfl) []
  rw [finish_eq_map_built, ← hfilled]
  rcases hbuilt : r.built found with cause | v
  · rfl
  · obtain ⟨-, -, rfl⟩ := built_eq_ok_iff.mp hbuilt
    rfl

theorem Schema.readWithin_congr {s : Schema} {finish finish' : Finish}
    (h : ∀ r ∈ s.records, finish r = finish' r) (c : WireConfig) (levels : Nat) :
    s.readWithin finish c levels = s.readWithin finish' c levels := by
  induction levels with
  | zero => rfl
  | succ levels ih =>
    funext name
    rw [readWithin, readWithin, ih]
    rcases hr : s.record? name with _ | r
    · rfl
    · dsimp only
      rw [Record.read, Record.read, h r (mem_of_record? hr)]

/-! ## Refinement -/

/-- Where names are distinct, a compiled document decodes a struct as its schema tells. -/
theorem Machine.decode_eq_read {d : Document} {c : Compiled} {s : Schema} (hs : d.schema = .ok s)
    (hrealizes : c.RealizesSchema s) (hd : d.NamesDistinct) (config : WireConfig) (name : String) :
    decode c config name = s.read config name := by
  rw [decode, decodeWithin_eq hrealizes (Nat.le_refl _), Schema.read, Schema.readWithin_congr]
  exact fun r hr => funext (Record.built_eq_finish (Document.names_of_schema hs hd r hr))

/-- Running the decode procedure of a struct gives what decoding by the schema gives, values,
faults and unread bytes alike, whatever the limits and the input are. -/
theorem Machine.decode_refines {d : Document} {c : Compiled} (hc : d.compile = .ok c)
    (hd : d.NamesDistinct) :
    ∃ s, d.schema = .ok s ∧ ∀ (config : WireConfig) (name : String) (input : Bytes),
      decode c config name input = s.read config name input := by
  obtain ⟨s, hs, hrealizes⟩ := Compiled.realizes_of_compile hc
  refine ⟨s, hs, fun config name input => ?_⟩
  rw [decode_eq_read hs hrealizes hd]

theorem Document.shelf_namesDistinct : shelf.NamesDistinct := by
  unfold NamesDistinct
  decide

/-- A shelf with two labels and a field that it does not declare, and a byte behind it. -/
def Document.relabelledShelf : Bytes :=
  [11, 0, 1, 0, 0, 0, 1, 97, 15, 0, 2, 8, 0, 0, 0, 2, 0, 0, 0, 5, 0, 0, 0, 6, 2, 0, 9, 1,
    11, 0, 1, 0, 0, 0, 1, 98, 0, 9]

theorem Machine.decode_refines_shelf :
    ∃ c s, Document.shelf.compile = .ok c ∧ Document.shelf.NamesDistinct ∧
      Document.shelf.schema = .ok s ∧
      decode c {} "Shelf" Document.relabelledShelf = s.read {} "Shelf" Document.relabelledShelf ∧
      s.read {} "Shelf" Document.relabelledShelf = .ok ⟨"Shelf",
        [("label", .string "b"), ("room", .i32 7), ("sizes", .list [.i32 5, .i32 6])]⟩ [9] := by
  obtain ⟨s, hs, hdecode⟩ := decode_refines (d := Document.shelf) rfl Document.shelf_namesDistinct
  cases Document.schema_shelf.symm.trans hs
  exact ⟨_, _, rfl, Document.shelf_namesDistinct, hs, hdecode {} "Shelf" _, rfl⟩

end Thrift
