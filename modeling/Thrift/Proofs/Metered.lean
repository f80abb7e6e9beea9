-- Decoding with a log. Whatever sizes the input announces, every field and every element that is
-- read takes bytes: no procedure of a compiled document reads an element without any.
import Thrift.Proofs.Blanks
import Thrift.Proofs.Clean
import Thrift.Proofs.Segments

namespace Thrift

open Machine (Frame Flow Surroundings headerOf roundLimit)

namespace Logged

/-! ## Running procedures -/

/-- Runs the body so many times, unless it leaves the loop or finishes; a round is an element. -/
def rounds (body : Frame → Logged Flow) : Nat → Frame → Logged Flow
  | 0, f => return .next f
  | n + 1, f => do
    match ← round .element (body f) with
    | .next f => rounds body n f
    | .leave f => return .next f
    | .finished v => return .finished v

/-- Runs the body until it leaves the loop or finishes; a round is a field. -/
def roundsUntilLeft (body : Frame → Logged Flow) : Nat → Frame → Logged Flow
  | 0, _ => throw (.codegen (.procedure .endlessLoop))
  | n + 1, f => do
    match ← round .field (body f) with
    | .next f => roundsUntilLeft body n f
    | .leave f => return .next f
    | .finished v => return .finished v

mutual

/-- Runs one statement of a decode procedure. Statements without loops are run as they are. -/
def decodeStmt (s : Surroundings) (nested : String → Logged StructValue) :
    Stmt → Frame → Logged Flow
  | .read (.struct name) dest, f => do
    return .next (f.bind dest (.value (← StructValue.toValue <$> nested name)))
  | .skip header, f => do
    skip s.config (← quiet (headerOf f header)).type
    return .next f
  | .loop body, f => do
    roundsUntilLeft (decodeBlock s nested body) (roundLimit body (← get).unread) f
  | .switch header cases default, f => do
    let h ← quiet (headerOf f header)
    match decodeCase s nested h.id cases f with
    | some run => run
    | none => decodeBlock s nested default f
  | .ifWireType header expected matching otherwise, f => do
    let h ← quiet (headerOf f header)
    if h.type = expected then decodeBlock s nested matching f
    else decodeBlock s nested otherwise f
  | .repeated metadata _ body, f => do
    rounds (decodeBlock s nested body) (← quiet (Machine.sizeOf f metadata)) f
  | other, f => quiet (Machine.decodeStmt s other f)

/-- Runs statements in order, as long as none of them leaves the block. -/
def decodeBlock (s : Surroundings) (nested : String → Logged StructValue) :
    List Stmt → Frame → Logged Flow
  | [], f => return .next f
  | stmt :: stmts, f => do
    match ← decodeStmt s nested stmt f with
    | .next f => decodeBlock s nested stmts f
    | flow => return flow

/-- The run of the first case with this id. -/
def decodeCase (s : Surroundings) (nested : String → Logged StructValue) (id : Int16) :
    List (Int16 × List Stmt) → Frame → Option (Logged Flow)
  | [], _ => none
  | (n, body) :: cases, f =>
    if n = id then some (decodeBlock s nested body f) else decodeCase s nested id cases f

end

/-- Runs a decode procedure to its end. -/
def runDecode (s : Surroundings) (nested : String → Logged StructValue) (codec : StructCodec) :
    Logged StructValue := do
  match ← decodeBlock s nested codec.decode Frame.empty with
  | .finished v => return v
  | _ => throw (.codegen (.procedure (.noResult codec.name)))

def decodeWithin (d : Compiled) (c : WireConfig) : Nat → String → Logged StructValue
  | 0, name => quiet (Reading.fail (.structDepth name c.maxDepth))
  | levels + 1, name =>
    match d.struct? name with
    | some codec => runDecode ⟨c, Machine.decodeWithin d c levels⟩ (decodeWithin d c levels) codec
    | none => throw (.codegen (.procedure (.noCodec name)))

def decode (d : Compiled) (c : WireConfig) (name : String) : Logged StructValue :=
  decodeWithin d c c.maxDepth name

/-! ## Without the log -/

section Tells

variable {s : Surroundings} {nested : String → Logged StructValue}

theorem rounds_tells {body : Frame → Logged Flow} {body' : Frame → Reading Flow}
    (h : ∀ f, Tells (body f) (body' f)) (n : Nat) (f : Frame) :
    Tells (rounds body n f) (Machine.rounds body' n f) := by
  induction n generalizing f with
  | zero => exact .pure _
  | succ n ih =>
    refine ((h f).round .element).bind fun flow => ?_
    cases flow with
    | next f => exact ih f
    | leave f => exact .pure _
    | finished v => exact .pure _

theorem roundsUntilLeft_tells {body : Frame → Logged Flow} {body' : Frame → Reading Flow}
    (h : ∀ f, Tells (body f) (body' f)) (n : Nat) (f : Frame) :
    Tells (roundsUntilLeft body n f) (Machine.roundsUntilLeft body' n f) := by
  induction n generalizing f with
  | zero => exact .throw _
  | succ n ih =>
    refine ((h f).round .field).bind fun flow => ?_
    cases flow with
    | next f => exact ih f
    | leave f => exact .pure _
    | finished v => exact .pure _

mutual

theorem decodeStmt_tells (h : ∀ name, Tells (nested name) (s.nested name)) (stmt : Stmt)
    (f : Frame) : Tells (decodeStmt s nested stmt f) (Machine.decodeStmt s stmt f) := by
  have hquiet : Tells (quiet (Machine.decodeStmt s stmt f)) (Machine.decodeStmt s stmt f) :=
    .quiet _
  cases stmt with
  | loop body =>
    intro t
    exact roundsUntilLeft_tells (decodeBlock_tells h body) (roundLimit body t.unread) f t
  | read codec dest =>
    cases codec with
    | scalar kind => exact hquiet
    | struct name => exact ((h name).map _).bind fun v => .pure _
  | skip header =>
    refine (Tells.quiet (headerOf f header)).bind fun found => ?_
    exact (skip_tells s.config found.type).bind fun _ => .pure _
  | «switch» header cases default =>
    refine (Tells.quiet (headerOf f header)).bind fun found => ?_
    have hcase := decodeCase_tells h found.id cases f
    generalize decodeCase s nested found.id cases f = run at hcase
    generalize Machine.decodeCase s found.id cases f = run' at hcase
    cases hcase with
    | none => exact decodeBlock_tells h default f
    | some hrun => exact hrun
  | ifWireType header expected matching otherwise =>
    refine (Tells.quiet (headerOf f header)).bind fun found => ?_
    split
    · exact decodeBlock_tells h matching f
    · exact decodeBlock_tells h otherwise f
  | repeated metadata counter body =>
    refine (Tells.quiet (Machine.sizeOf f metadata)).bind fun n => ?_
    exact rounds_tells (decodeBlock_tells h body) n f
  | _ => exact hquiet

theorem decodeBlock_tells (h : ∀ name, Tells (nested name) (s.nested name)) (code : List Stmt)
    (f : Frame) : Tells (decodeBlock s nested code f) (Machine.decodeBlock s code f) := by
  cases code with
  | nil => exact .pure _
  | cons stmt stmts =>
    refine (decodeStmt_tells h stmt f).bind fun flow => ?_
    cases flow with
    | next f => exact decodeBlock_tells h stmts f
    | leave f => exact .pure _
    | finished v => exact .pure _

theorem decodeCase_tells (h : ∀ name, Tells (nested name) (s.nested name)) (id : Int16)
    (cases : List (Int16 × List Stmt)) (f : Frame) :
    Option.Rel Tells (decodeCase s nested id cases f) (Machine.decodeCase s id cases f) := by
  cases cases with
  | nil => exact .none
  | cons case cases =>
    obtain ⟨n, body⟩ := case
    rw [decodeCase, Machine.decodeCase]
    split
    · exact .some (decodeBlock_tells h body f)
    · exact decodeCase_tells h id cases f

end

theorem runDecode_tells (h : ∀ name, Tells (nested name) (s.nested name)) (codec : StructCodec) :
    Tells (runDecode s nested codec) (Machine.runDecode s codec) := by
  refine (decodeBlock_tells h codec.decode Frame.empty).bind fun flow => ?_
  cases flow with
  | finished v => exact .pure v
  | next f => exact .throw _
  | leave f => exact .throw _

end Tells

/-- Without its log, a run decodes as the machine does. -/
theorem decodeWithin_tells (d : Compiled) (c : WireConfig) (levels : Nat) (name : String) :
    Tells (decodeWithin d c levels name) (Machine.decodeWithin d c levels name) := by
  induction levels generalizing name with
  | zero => exact .quiet _
  | succ levels ih =>
    rw [decodeWithin, Machine.decodeWithin]
    rcases d.struct? name with _ | codec
    · exact .throw _
    · exact runDecode_tells (s := ⟨c, Machine.decodeWithin d c levels⟩) ih codec

/-! ## What procedures pay -/

section Pays

variable {s : Surroundings} {nested : String → Logged StructValue}

theorem rounds_pays {body : Frame → Logged Flow} (h : ∀ f, Pays 1 (body f)) (n : Nat) (f : Frame) :
    Pays 0 (rounds body n f) := by
  induction n generalizing f with
  | zero => exact .pure _
  | succ n ih =>
    refine (h f).element.first fun flow => ?_
    cases flow with
    | next f => exact ih f
    | leave f => exact .pure _
    | finished v => exact .pure _

/-- A loop over fields ends in one of its rounds. -/
theorem roundsUntilLeft_pays {body : Frame → Logged Flow} (h : ∀ f, Pays 1 (body f)) (n : Nat)
    (f : Frame) : Pays 1 (roundsUntilLeft body n f) := by
  induction n generalizing f with
  | zero => exact .throw _
  | succ n ih =>
    refine (h f).field.first fun flow => ?_
    cases flow with
    | next f => exact (ih f).mono (Nat.zero_le 1)
    | leave f => exact .pure _
    | finished v => exact .pure _

theorem decodeBlock_append (s : Surroundings) (nested : String → Logged StructValue)
    (a b : List Stmt) (f : Frame) :
    decodeBlock s nested (a ++ b) f = decodeBlock s nested a f >>= fun
      | .next f => decodeBlock s nested b f
      | flow => pure flow := by
  induction a generalizing f with
  | nil => rfl
  | cons stmt a ih =>
    rw [List.cons_append, decodeBlock, decodeBlock, bind_assoc]
    congr 1
    funext flow
    cases flow with
    | next f => exact ih f
    | leave f => rfl
    | finished v => rfl

variable {n : Nat}

/-- What the first statements pay is paid, whatever follows them. -/
theorem append_pays {a b : List Stmt} (ha : ∀ f, Pays n (decodeBlock s nested a f))
    (hb : ∀ f, Pays 0 (decodeBlock s nested b f)) (f : Frame) :
    Pays n (decodeBlock s nested (a ++ b) f) := by
  rw [decodeBlock_append]
  refine (ha f).first fun flow => ?_
  cases flow with
  | next f => exact hb f
  | leave f => exact .pure _
  | finished v => exact .pure _

theorem cons_pays {stmt : Stmt} {code : List Stmt} (h : ∀ f, Pays n (decodeStmt s nested stmt f))
    (hcode : ∀ f, Pays 0 (decodeBlock s nested code f)) (f : Frame) :
    Pays n (decodeBlock s nested (stmt :: code) f) := by
  rw [decodeBlock]
  refine (h f).first fun flow => ?_
  cases flow with
  | next f => exact hcode f
  | leave f => exact .pure _
  | finished v => exact .pure _

theorem nil_pays (f : Frame) : Pays 0 (decodeBlock s nested [] f) := .pure _

/-! ### Statements -/

theorem scalar_costs (c : WireConfig) (kind : ScalarKind) :
    Reading.Costs 1 (Machine.readScalar c kind) := by
  cases kind with
  | bool => exact .map .bool _
  | byte => exact .map .byte _
  | i16 => exact (Reading.Costs.i16.map _).mono (by decide)
  | i32 => exact (Reading.Costs.i32.map _).mono (by decide)
  | i64 => exact (Reading.Costs.i64.map _).mono (by decide)
  | double => exact (Reading.Costs.double.map _).mono (by decide)
  | string => exact ((Reading.Costs.string c).map _).mono (by decide)
  | binary => exact ((Reading.Costs.binary c).map _).mono (by decide)

theorem size_costs (c : WireConfig) (kind : ContainerKind) :
    Reading.Costs 1 (Machine.readSize c kind) := by
  cases kind with
  | list element => exact ((Reading.Costs.listHeader c).map _).mono (by decide)
  | set element => exact ((Reading.Costs.setHeader c).map _).mono (by decide)
  | map key value => exact ((Reading.Costs.mapHeader c).map _).mono (by decide)

theorem takeValue_costs (f : Frame) (name : String) :
    Reading.Costs 0 (Machine.takeValue f name) := by
  unfold Machine.takeValue
  split
  · exact .pure _
  · exact .throw _

theorem headerOf_costs (f : Frame) (name : String) : Reading.Costs 0 (headerOf f name) := by
  unfold headerOf
  split
  · exact .pure _
  · exact .throw _

theorem sizeOf_costs (f : Frame) (name : String) : Reading.Costs 0 (Machine.sizeOf f name) := by
  unfold Machine.sizeOf
  split
  · exact .pure _
  · exact .throw _

theorem insert_costs (f : Frame) (container : String) (key : Option String) (value : String) :
    Reading.Costs 0 (Machine.insert f container key value) := by
  unfold Machine.insert
  refine (takeValue_costs f value).first fun taken => ?_
  rcases key with _ | name
  case' some => refine (takeValue_costs taken.2 name).first fun keyed => ?_
  -- The container is looked up in the same way with a key and without one.
  all_goals
    dsimp only
    rw [pure_bind]
    split
    · split
      · exact .pure _
      · exact .throw _
    · exact .throw _

theorem readScalar_pays (kind : ScalarKind) (x : String) (f : Frame) :
    Pays 1 (decodeStmt s nested (.read (.scalar kind) x) f) :=
  .quiet ((scalar_costs s.config kind).first fun _ => .pure _)

theorem readStruct_pays (hn : ∀ name, Pays 1 (nested name)) (name x : String) (f : Frame) :
    Pays 1 (decodeStmt s nested (.read (.struct name) x) f) :=
  ((hn name).map _).first fun _ => .pure _

theorem insert_pays (kind : ContainerKind) (x : String) (key : Option String) (v : String)
    (f : Frame) : Pays 0 (decodeStmt s nested (.insert kind x key v) f) :=
  .quiet ((insert_costs f x key v).first fun _ => .pure _)

theorem skip_pays_nothing (header : String) (f : Frame) :
    Pays 0 (decodeStmt s nested (.skip header) f) := by
  refine (Pays.quiet (headerOf_costs f header)).first fun found => ?_
  exact ((skip_pays s.config found.type).mono (Nat.zero_le _)).first fun _ => .pure _

/-- A container pays for its header and for each of its elements. -/
theorem readContainer_pays (kind : ContainerKind) (m i x : String) {body : List Stmt}
    (hbody : ∀ f, Pays 1 (decodeBlock s nested body f)) (f : Frame) :
    Pays 1 (decodeBlock s nested (Draft.readContainer kind m i x body) f) := by
  have hbegin : ∀ f, Pays 1 (decodeStmt s nested (.readContainerBegin kind m) f) :=
    fun f => .quiet ((size_costs s.config kind).first fun _ => .pure _)
  have hnew : ∀ f, Pays 0 (decodeStmt s nested (.newContainer kind x) f) := fun f => .quiet (.pure _)
  have hrounds : ∀ f, Pays 0 (decodeStmt s nested (.repeated m i body) f) :=
    fun f => (Pays.quiet (sizeOf_costs f m)).first fun n => rounds_pays hbody n f
  have hend : ∀ f, Pays 0 (decodeStmt s nested (.readContainerEnd kind) f) :=
    fun f => .quiet (.pure _)
  exact cons_pays hbegin (cons_pays hnew (cons_pays hrounds (cons_pays hend nil_pays))) f

/-! ### Values -/

/-- Statements that load a value take bytes, unless the value is a void. Elements are no voids, so
each of them pays for itself. -/
theorem loads_pays (hn : ∀ name, Pays 1 (nested name)) {header x : String} {form : Form}
    {code : List Stmt} (h : Loads header form x code) (f : Frame) :
    Pays (if form = .void then 0 else 1) (decodeBlock s nested code f) := by
  have hinsert : ∀ kind x key v f, Pays 0 (decodeBlock s nested [.insert kind x key v] f) :=
    fun kind x key v => cons_pays (insert_pays kind x key v) nil_pays
  induction h generalizing f with
  | scalar kind x => exact cons_pays (readScalar_pays kind x) nil_pays f
  | struct name x => exact cons_pays (readStruct_pays hn name x) nil_pays f
  | list he hm hx hcode ih =>
    simp only [if_neg he] at ih
    exact readContainer_pays _ _ _ _ (append_pays ih (hinsert _ _ _ _)) f
  | set he hm hx hcode ih =>
    simp only [if_neg he] at ih
    exact readContainer_pays _ _ _ _ (append_pays ih (hinsert _ _ _ _)) f
  | map hk he hm hkn hx hkey hcode ihk ihe =>
    simp only [if_neg hk] at ihk
    have helement := fun f => (ihe f).mono (Nat.zero_le _)
    exact readContainer_pays _ _ _ _
      (append_pays (append_pays ihk helement) (hinsert _ _ _ _)) f
  | void x => exact cons_pays (skip_pays_nothing header) nil_pays f

theorem skipBlock_pays (header : String) (f : Frame) :
    Pays 0 (decodeBlock s nested [.skip header] f) := cons_pays (skip_pays_nothing header) nil_pays f

theorem ifWireType_pays {header : String} {expected : WireType} {matching otherwise : List Stmt}
    (hm : ∀ f, Pays 0 (decodeBlock s nested matching f))
    (ho : ∀ f, Pays 0 (decodeBlock s nested otherwise f)) (f : Frame) :
    Pays 0 (decodeStmt s nested (.ifWireType header expected matching otherwise) f) := by
  refine (Pays.quiet (headerOf_costs f header)).first fun found => ?_
  split
  · exact hm f
  · exact ho f

theorem case_pays (hn : ∀ name, Pays 1 (nested name)) {m : Member} {case : Int16 × List Stmt}
    (h : LoadsCase m case) (f : Frame) : Pays 0 (decodeBlock s nested case.2 f) := by
  cases h with
  | void hm => exact cons_pays (ifWireType_pays (skipBlock_pays _) (skipBlock_pays _)) nil_pays f
  | @value x code hm hl =>
    have hload : ∀ f, Pays 0 (decodeBlock s nested code f) :=
      fun f => (loads_pays hn hl f).mono (Nat.zero_le _)
    have hstage : ∀ f, Pays 0 (decodeStmt s nested (.stage m.name x) f) :=
      fun f => .quiet ((takeValue_costs f x).first fun _ => .pure _)
    have hmatching := append_pays hload (cons_pays hstage nil_pays)
    exact cons_pays (ifWireType_pays hmatching (skipBlock_pays _)) nil_pays f

theorem decodeCase_pays (hn : ∀ name, Pays 1 (nested name)) {ms : List Member}
    {cases : List (Int16 × List Stmt)} (h : List.Forall₂ LoadsCase ms cases) {id : Int16}
    {f : Frame} {run : Logged Flow} (hrun : decodeCase s nested id cases f = some run) :
    Pays 0 run := by
  induction h with
  | nil =>
    rw [decodeCase] at hrun
    cases hrun
  | @cons m case ms cases hm _ ih =>
    rw [decodeCase] at hrun
    split at hrun
    · cases hrun
      exact case_pays hn hm f
    · exact ih hrun

/-! ### Structs -/

/-- A round of the loop over fields pays for the header that it reads. -/
theorem fieldLoop_pays (hn : ∀ name, Pays 1 (nested name)) {ms : List Member}
    {cases : List (Int16 × List Stmt)} (h : List.Forall₂ LoadsCase ms cases) (f : Frame) :
    Pays 1 (decodeBlock s nested (StructCodec.fieldLoop cases) f) := by
  have hbegin : ∀ header f, Pays 1 (decodeStmt s nested (.readFieldBegin header) f) :=
    fun header f => .quiet (Reading.Costs.fieldHeader.first fun _ => .pure _)
  have hbreak : ∀ header f, Pays 0 (decodeStmt s nested (.breakIfStop header) f) :=
    fun header f => .quiet ((headerOf_costs f header).first fun _ => .pure _)
  have hswitch : ∀ header f,
      Pays 0 (decodeStmt s nested (.switch header cases [.skip header]) f) := by
    intro header f
    refine (Pays.quiet (headerOf_costs f header)).first fun found => ?_
    split
    · rename_i run hrun
      exact decodeCase_pays hn h hrun
    · exact skipBlock_pays header f
  have hend : ∀ f, Pays 0 (decodeStmt s nested .readFieldEnd f) := fun f => .quiet (.pure _)
  exact cons_pays (hbegin _) (cons_pays (hbreak _) (cons_pays (hswitch _)
    (cons_pays hend nil_pays))) f

theorem loop_pays {body : List Stmt} (h : ∀ f, Pays 1 (decodeBlock s nested body f)) (f : Frame) :
    Pays 1 (decodeStmt s nested (.loop body) f) where
  ok t := (roundsUntilLeft_pays h (roundLimit body t.unread) f).ok t
  error t := (roundsUntilLeft_pays h (roundLimit body t.unread) f).error t

/-- A struct takes bytes, if only for its end. -/
theorem runDecode_pays (hn : ∀ name, Pays 1 (nested name)) {codec : StructCodec} {r : Record}
    (h : Realizes codec r) : Pays 1 (runDecode s nested codec) := by
  obtain ⟨cases, hcases, hdecode⟩ := h.decode
  have hend : ∀ f, Pays 0 (decodeStmt s nested .readStructEnd f) := fun f => .quiet (.pure _)
  have hconstruct : ∀ inits f,
      Pays 0 (decodeStmt s nested (.construct r.name r.kind inits) f) := by
    intro inits f
    refine .quiet ?_
    rw [Machine.decodeStmt]
    split
    · exact .pure _
    · exact .throw _
  have hloop : Pays 1 (decodeBlock s nested codec.decode Frame.empty) := by
    rw [hdecode]
    exact cons_pays (loop_pays (fieldLoop_pays hn hcases))
      (cons_pays hend (cons_pays (hconstruct _) nil_pays)) Frame.empty
  refine hloop.first fun flow => ?_
  cases flow with
  | finished v => exact .pure v
  | next f => exact .throw _
  | leave f => exact .throw _

end Pays

theorem decodeWithin_pays {d : Compiled} {s : Schema} (h : d.RealizesSchema s) (c : WireConfig)
    (levels : Nat) (name : String) : Pays 1 (decodeWithin d c levels name) := by
  induction levels generalizing name with
  | zero => exact .quiet (.throw _)
  | succ levels ih =>
    rw [decodeWithin]
    rcases h.find name with ⟨hnone, -⟩ | ⟨codec, r, hcodec, -, hr⟩
    · rw [hnone]
      exact .throw _
    · rw [hcodec]
      exact runDecode_pays ih hr

end Logged

/-- No loop of a compiled document is endless. -/
theorem Machine.decode_not_endless {d : Document} {c : Compiled} (hc : d.compile = .ok c)
    (config : WireConfig) (name : String) (input rest : Bytes) :
    decode c config name input ≠ .error (.codegen (.procedure .endlessLoop)) rest := by
  obtain ⟨s, hs, hrealizes⟩ := Compiled.realizes_of_compile hc
  obtain ⟨t, ht, -⟩ := Document.declares_of_compile hc
  intro hfault
  rcases hrealizes.find name with ⟨hnone, -⟩ | ⟨codec, r, -, hr, -⟩
  · rw [decode] at hfault
    cases hdepth : config.maxDepth with
    | zero =>
      rw [hdepth] at hfault
      cases hfault
    | succ levels =>
      rw [hdepth, decodeWithin, hnone] at hfault
      cases hfault
  · have hclosed := Document.closed_of_compile hc ht hs hrealizes
    rw [decode, decodeWithin_eq hrealizes (Nat.le_refl _)] at hfault
    cases Reading.Clean.law.struct hclosed _ config _ hr input _ rest hfault

/-- Decoding with a compiled document, whatever the limits and the input are. The log is that of
the run, and the run comes to its end: no loop is endless. Every field and every element takes
bytes, in runs that fail as well, and a run that succeeds read no more elements, over all levels of
nesting, than it took bytes. -/
theorem Logged.decode_metered {d : Document} {c : Compiled} (hc : d.compile = .ok c)
    (config : WireConfig) (name : String) (input : Bytes) :
    forget (decode c config name ⟨input, []⟩) = Machine.decode c config name input ∧
      (∀ rest, Machine.decode c config name input ≠
        .error (.codegen (.procedure .endlessLoop)) rest) ∧
      (∀ r ∈ roundsOf (decode c config name ⟨input, []⟩), r.Paid) ∧
      ∀ v rest, Machine.decode c config name input = .ok v rest →
        Round.elements (roundsOf (decode c config name ⟨input, []⟩)) + rest.length ≤
          input.length := by
  obtain ⟨s, -, hrealizes⟩ := Compiled.realizes_of_compile hc
  have htells := decodeWithin_tells c config config.maxDepth name ⟨input, []⟩
  obtain ⟨hpaid, hbound⟩ := (decodeWithin_pays hrealizes config config.maxDepth name).run input
  refine ⟨htells, Machine.decode_not_endless hc config name input, hpaid, fun v rest hv => ?_⟩
  exact hbound v rest (htells.trans hv)

/-- Whether a run succeeded and left these bytes. -/
def Reading.leaves {α : Type} (rest : Bytes) : EStateM.Result Fault Bytes α → Bool
  | .ok _ left => left == rest
  | .error _ _ => false

theorem Reading.exists_of_leaves {α : Type} {rest : Bytes} {r : EStateM.Result Fault Bytes α}
    (h : leaves rest r = true) : ∃ a, r = .ok a rest := by
  cases r with
  | ok a left => exact ⟨a, by rw [beq_iff_eq.mp h]⟩
  | error e left => cases h

/-- A shelf with two sizes, and a byte behind it. -/
def Document.shelfInput : Bytes :=
  [11, 0, 1, 0, 0, 0, 0, 15, 0, 2, 8, 0, 0, 0, 2, 0, 0, 0, 5, 0, 0, 0, 6, 0, 9]

/-- Its two fields, its end and its two elements are rounds. -/
theorem Logged.decode_metered_shelf : Document.shelf.compile = .ok Document.shelfCodecs ∧
    (∀ r ∈ roundsOf (decode Document.shelfCodecs {} "Shelf" ⟨Document.shelfInput, []⟩), r.Paid) ∧
      (roundsOf (decode Document.shelfCodecs {} "Shelf" ⟨Document.shelfInput, []⟩)).length = 5 ∧
      ∃ v, Machine.decode Document.shelfCodecs {} "Shelf" Document.shelfInput = .ok v [9] ∧
        Round.elements (roundsOf
          (decode Document.shelfCodecs {} "Shelf" ⟨Document.shelfInput, []⟩)) +
            ([9] : Bytes).length ≤ Document.shelfInput.length := by
  obtain ⟨-, -, hpaid, hbound⟩ :=
    decode_metered Document.compile_shelf {} "Shelf" Document.shelfInput
  have hleaves : Reading.leaves [9]
      (Machine.decode Document.shelfCodecs {} "Shelf" Document.shelfInput) = true := by
    decide +kernel
  obtain ⟨v, hv⟩ := Reading.exists_of_leaves hleaves
  exact ⟨Document.compile_shelf, hpaid, by decide +kernel, v, hv, hbound v [9] hv⟩

end Thrift
