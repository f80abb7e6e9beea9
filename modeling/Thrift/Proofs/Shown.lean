-- What a script shows of a procedure. A statement that calls the protocol stands for one line.
-- Every other statement stands for pieces of its own with the statements below it in their places.
-- The script is exactly that, and the statements come in it in the order in which a walk meets
-- them. The pieces go up and down in levels of indentation and come back to where they began.
import Thrift.Proofs.Blocks
import Thrift.Proofs.Methods

namespace Thrift

/-- The statement begins or ends something on the wire, or moves or passes over a value. -/
def Stmt.isCall : Stmt → Bool
  | readStructBegin | readStructEnd | readFieldBegin _ | readFieldEnd | readContainerBegin _ _
  | readContainerEnd _ | read _ _ | skip _ => true
  | writeStructBegin _ | writeStructEnd | writeFieldBegin _ _ _ | writeFieldEnd | writeFieldStop
  | writeContainerBegin _ _ | writeContainerEnd _ | write _ _ => true
  | _ => false

namespace Script

/-! ## What a statement stands for -/

/-- The type that a local is declared with. -/
def Scene.shownType (s : Scene) (l : Locals) (name other : String) : String :=
  (s.localType l name).getD other

/-- The line of a statement that calls the protocol. -/
def Scene.callLine? (s : Scene) (l : Locals) : Stmt → Option String
  | .readStructBegin => some "input.readStructBegin();"
  | .readStructEnd => some "input.readStructEnd();"
  | .readFieldBegin header =>
    some ("const " ++ header ++ ": thrift.IThriftField = input.readFieldBegin();")
  | .readFieldEnd => some "input.readFieldEnd();"
  | .readContainerBegin kind metadata =>
    some ("const " ++ metadata ++ ": thrift.IThrift" ++ kind.name ++ " = input.read" ++ kind.name ++
      "Begin();")
  | .readContainerEnd kind => some ("input.read" ++ kind.name ++ "End();")
  | .read (.scalar kind) dest =>
    some ("const " ++ dest ++ ": " ++ s.shownType l dest (codecType (.scalar kind)) ++ " = " ++
      ("input.read" ++ kind.suffix ++ "()") ++ ";")
  | .read (.struct name) dest =>
    some ("const " ++ dest ++ ": " ++ s.shownType l dest name ++ " = " ++
      (name ++ ".read(input)") ++ ";")
  | .skip header => some ("input.skip(" ++ header ++ ".fieldType);")
  | .writeStructBegin name => some ("output.writeStructBegin(" ++ quote name ++ ");")
  | .writeStructEnd => some "output.writeStructEnd();"
  | .writeFieldBegin name tag id =>
    some ("output.writeFieldBegin(" ++ quote name ++ ", " ++ tagOf tag ++ ", " ++
      toString id.toInt ++ ");")
  | .writeFieldEnd => some "output.writeFieldEnd();"
  | .writeFieldStop => some "output.writeFieldStop();"
  | .writeContainerBegin (.list element) source =>
    some ("output.writeListBegin(" ++ tagOf element ++ ", " ++ exprText source ++ ".length);")
  | .writeContainerBegin (.set element) source =>
    some ("output.writeSetBegin(" ++ tagOf element ++ ", " ++ exprText source ++ ".size);")
  | .writeContainerBegin (.map key value) source =>
    some ("output.writeMapBegin(" ++ tagOf key ++ ", " ++ tagOf value ++ ", " ++
      exprText source ++ ".size);")
  | .writeContainerEnd kind => some ("output.write" ++ kind.name ++ "End();")
  | .write (.scalar kind) source =>
    some ("output.write" ++ kind.suffix ++ "(" ++ exprText source ++ ");")
  | .write (.struct _) source => some (exprText source ++ ".write(output);")
  | _ => none

/-- The types of locals below a statement. Only a visit gives types to the elements. -/
def Scene.below (s : Scene) (l : Locals) : Stmt → Locals
  | .forEach _ source key value _ =>
    match s.exprType l source with
    | some container => bindElements s.symbols container key value l
    | none => l
  | _ => l

/-- A part of what a statement stands for: a piece, or the place of statements below it. -/
inductive Part
  | piece (p : Piece)
  | body (code : List Stmt)

def Part.line (text : String) : Part := .piece (.line text)

/-- A block between two lines. -/
def Part.block (head : String) (inner : List Part) (foot : String) : List Part :=
  line head :: .piece .indent :: (inner ++ [.piece .dedent, line foot])

/-- A block under a condition. -/
def Part.under (condition : String) (inner : List Part) : List Part :=
  block ("if (" ++ condition ++ ") \x7b") inner "\x7d"

/-- A protocol exception is thrown. -/
def Part.refuses (kind message : String) : Part :=
  line ("throw new thrift.TProtocolException(thrift.TProtocolExceptionType." ++ kind ++ ", " ++
    message ++ ");")

def Part.case : Int16 × List Stmt → List Part
  | (id, code) => [line ("case " ++ toString id.toInt ++ ":"), .piece .indent, .body code,
      line "break;", .piece .dedent]

open Thrift.Script.Part (line under refuses)

/-- Exactly one field of a union was read. -/
def unionParts (struct : String) (fields : List FieldInit) : List Part :=
  [line "let _fieldsSet: number = 0;"] ++
    (fields.flatMap fun f =>
      under ("_args." ++ f.name ++ " !== undefined") [line "_fieldsSet++;"]) ++
    [line "if (_fieldsSet === 0) \x7b", .piece .indent,
      refuses "INVALID_DATA" (quote ("Union " ++ struct ++ " was decoded with no field set")),
      .piece .dedent] ++
    Part.block "\x7d else if (_fieldsSet > 1) \x7b" [refuses "INVALID_DATA"
      ("`Union " ++ struct ++ " was decoded with $\x7b_fieldsSet\x7d fields set`")] "\x7d"

def requiredParts (struct : String) (fields : List FieldInit) : List Part :=
  (fields.filter (·.required)).flatMap fun f => under ("_args." ++ f.name ++ " === undefined")
    [refuses "UNKNOWN" (quote ("Unable to read " ++ struct ++ " from input"))]

def defaultParts (fields : List FieldInit) : List Part :=
  fields.flatMap fun f =>
    match f.default with
    | some v => under ("_args." ++ f.name ++ " === undefined")
        [line ("_args." ++ f.name ++ " = " ++ literal v ++ ";")]
    | none => []

/-- A struct is made of the fields that were read. -/
def constructParts (struct : String) (kind : StructKind) (fields : List FieldInit) : List Part :=
  requiredParts struct fields ++ (if kind = .union then unionParts struct fields else []) ++
    defaultParts fields ++ [line ("return new " ++ struct ++ "(_args);")]

/-- Exactly one field of a union is set. -/
def singleParts (source : Expr) (struct : String) (fields : List String) : List Part :=
  [line "let _fieldsSet: number = 0;"] ++
    (fields.flatMap fun f =>
      under (exprText source ++ "." ++ f ++ " != null") [line "_fieldsSet++;"]) ++
    under "_fieldsSet !== 1" [refuses "INVALID_DATA" ("`Union " ++ struct ++
      " must have exactly one field set, found $\x7b_fieldsSet\x7d`")]

/-- What a statement stands for that does not call the protocol itself. -/
def Scene.parts (s : Scene) (l : Locals) : Stmt → List Part
  | .newContainer kind dest =>
    let type := s.shownType l dest (anyContainer kind)
    [line ("const " ++ dest ++ ": " ++ type ++ " = new " ++ type ++ "();")]
  | .insert (.map _ _) container (some key) value =>
    [line (container ++ ".set(" ++ key ++ ", " ++ value ++ ");")]
  | .insert (.set _) container _ value => [line (container ++ ".add(" ++ value ++ ");")]
  | .insert _ container _ value => [line (container ++ ".push(" ++ value ++ ");")]
  | .loop body => Part.block "while (true) \x7b" [.body body] "\x7d"
  | .breakIfStop header => under (header ++ ".fieldType === thrift.TType.STOP") [line "break;"]
  | .switch header cases default =>
    Part.block ("switch (" ++ header ++ ".fieldId) \x7b")
      (cases.flatMap Part.case ++ Part.block "default: \x7b" [.body default] "\x7d") "\x7d"
  | .ifWireType header expected matching otherwise =>
    let test := header ++ ".fieldType === " ++ tagOf expected
    if otherwise.isEmpty then under test [.body matching]
    else [line ("if (" ++ test ++ ") \x7b"), .piece .indent, .body matching, .piece .dedent] ++
      Part.block "\x7d else \x7b" [.body otherwise] "\x7d"
  | .repeated metadata counter body =>
    Part.block ("for (let " ++ counter ++ " = 0; " ++ counter ++ " < " ++ metadata ++ ".size; " ++
      counter ++ "++) \x7b") [.body body] "\x7d"
  | .stage field value => [line ("_args." ++ field ++ " = " ++ value ++ ";")]
  | .construct struct kind fields => constructParts struct kind fields
  | .forEach kind source key value body =>
    let inner := s.below l (.forEach kind source key value body)
    let param name := name ++ ": " ++ s.shownType inner name "any"
    let params := match key with
      | some key => param value ++ ", " ++ param key
      | none => param value
    Part.block (exprText source ++ ".forEach((" ++ params ++ "): void => \x7b") [.body body]
      "\x7d);"
  | .ifPresent source body => under (exprText source ++ " != null") [.body body]
  | .requirePresent source field =>
    under (exprText source ++ " == null")
      [refuses "UNKNOWN" (quote ("Required field " ++ field ++ " is unset!"))]
  | .requireSingleField source struct fields => singleParts source struct fields
  | _ => []

/-- What the parts stand for: the statements in them in the order in which they are met, and the
pieces that are written. Of a statement that calls the protocol this is its line and no more. The
types of locals go along. -/
inductive Shows (s : Scene) : Locals → List Part → List Stmt → List Piece → Locals → Prop
  | done {l : Locals} : Shows s l [] [] [] l
  | piece {l l' : Locals} {p : Piece} {rest : List Part} {stmts : List Stmt} {pieces : List Piece}
      (more : Shows s l rest stmts pieces l') : Shows s l (.piece p :: rest) stmts (p :: pieces) l'
  | ended {l l' : Locals} {rest : List Part} {stmts : List Stmt} {pieces : List Piece}
      (more : Shows s l rest stmts pieces l') : Shows s l (.body [] :: rest) stmts pieces l'
  | call {l l' : Locals} {stmt : Stmt} {text : String} {code : List Stmt} {rest : List Part}
      {stmts : List Stmt} {pieces : List Piece} (h : s.callLine? l stmt = some text)
      (more : Shows s l (.body code :: rest) stmts pieces l') :
      Shows s l (.body (stmt :: code) :: rest) (stmt :: stmts) (.line text :: pieces) l'
  | opened {l l' : Locals} {stmt : Stmt} {code : List Stmt} {rest : List Part} {stmts : List Stmt}
      {pieces : List Piece} (h : s.callLine? l stmt = none)
      (more : Shows s (s.below l stmt) (s.parts l stmt ++ .body code :: rest) stmts pieces l') :
      Shows s l (.body (stmt :: code) :: rest) (stmt :: stmts) pieces l'

namespace Shows

variable {s : Scene} {l l' l'' : Locals} {ps qs inner : List Part} {stmts more : List Stmt}
  {pieces others : List Piece} {head foot text : String}

theorem append (h : Shows s l ps stmts pieces l') (h' : Shows s l' qs more others l'') :
    Shows s l (ps ++ qs) (stmts ++ more) (pieces ++ others) l'' := by
  induction h with
  | done => exact h'
  | piece _ ih => exact .piece (ih h')
  | ended _ ih => exact .ended (ih h')
  | call hcall _ ih => exact .call hcall (ih h')
  | opened hnone _ ih =>
    have hrest := ih h'
    rw [List.append_assoc] at hrest
    exact .opened hnone hrest

/-- The parts leave nothing open: neither a line nor a statement can be more or less. -/
theorem unique (h : Shows s l ps stmts pieces l') (h' : Shows s l ps more others l'') :
    stmts = more ∧ pieces = others ∧ l' = l'' := by
  induction h generalizing more others l'' with
  | done =>
    cases h'
    exact ⟨rfl, rfl, rfl⟩
  | piece _ ih =>
    cases h' with
    | piece h' =>
      obtain ⟨rfl, rfl, rfl⟩ := ih h'
      exact ⟨rfl, rfl, rfl⟩
  | ended _ ih =>
    cases h' with
    | ended h' => exact ih h'
  | call hcall _ ih =>
    cases h' with
    | call hcall' h' =>
      obtain rfl := Option.some.inj (hcall.symm.trans hcall')
      obtain ⟨rfl, rfl, rfl⟩ := ih h'
      exact ⟨rfl, rfl, rfl⟩
    | opened hnone _ =>
      rw [hcall] at hnone
      cases hnone
  | opened hnone _ ih =>
    cases h' with
    | call hcall _ =>
      rw [hnone] at hcall
      cases hcall
    | opened _ h' =>
      obtain ⟨rfl, rfl, rfl⟩ := ih h'
      exact ⟨rfl, rfl, rfl⟩

theorem one (text : String) : Shows s l [line text] [] [.line text] l := .piece .done

theorem flatMap {α : Type} {f : α → List Part} {g : α → List Piece}
    (h : ∀ a, Shows s l (f a) [] (g a) l) (as : List α) :
    Shows s l (as.flatMap f) [] (as.flatMap g) l := by
  induction as with
  | nil => exact .done
  | cons a as ih =>
    rw [List.flatMap_cons, List.flatMap_cons]
    exact (h a).append ih

theorem refused (kind message : String) :
    Shows s l [Part.refuses kind message] [] [.line (throwProtocol kind message)] l := one _

/-- A block that the next head or the foot closes. -/
theorem halfBlock (head : String) (h : Shows s l inner stmts pieces l') :
    Shows s l (line head :: .piece .indent :: (inner ++ [.piece .dedent])) stmts
      ([.line head, .indent] ++ pieces ++ [.dedent]) l' := by
  have hdedent : Shows s l' [.piece .dedent] [] [.dedent] l' := .piece .done
  have hinner := h.append hdedent
  rw [List.append_nil] at hinner
  exact .piece (.piece hinner)

theorem block (head foot : String) (h : Shows s l inner stmts pieces l') :
    Shows s l (Part.block head inner foot) stmts (enclosed head pieces foot) l' := by
  have hblock := (halfBlock head h).append (one foot)
  simpa [enclosed, chained, Part.block] using hblock

/-- Two blocks in a row. -/
theorem pair (head head' foot : String) (h : Shows s l inner stmts pieces l')
    (h' : Shows s l' ps more others l'') :
    Shows s l (line head :: .piece .indent :: (inner ++ .piece .dedent :: Part.block head' ps foot))
      (stmts ++ more) (chained [(head, pieces), (head', others)] foot) l'' := by
  have hblocks := (halfBlock head h).append (block head' foot h')
  simpa [enclosed, chained] using hblocks

theorem braced (head : String) (hhead : head ++ " \x7b" = text)
    (h : Shows s l inner stmts pieces l') :
    Shows s l (Part.block text inner "\x7d") stmts (Script.braced head pieces) l' := by
  subst hhead
  exact block _ _ h

/-- A block under a condition. -/
theorem under {condition : String} (hhead : "if (" ++ condition ++ ")" = head)
    (h : Shows s l inner stmts pieces l') :
    Shows s l (Part.under condition inner) stmts (Script.braced head pieces) l' :=
  braced head (by simp [← hhead, String.append_assoc]) h

theorem refusal (condition kind message : String) :
    Shows s l (Part.under condition [refuses kind message]) []
      (Script.refusal condition kind message) l := under rfl (.refused kind message)

theorem countField (place : String) :
    Shows s l (Part.under place [line "_fieldsSet++;"]) [] (Script.countField place) l :=
  under rfl (one _)

end Shows

/-! ## Statements -/

section

variable {s : Scene} {l : Locals}

theorem shows_unionChecks (struct : String) (fields : List FieldInit) :
    Shows s l (unionParts struct fields) [] (unionChecks struct fields) l := by
  have hcounts : Shows s l
      (fields.flatMap fun f =>
        under ("_args." ++ f.name ++ " !== undefined") [line "_fieldsSet++;"])
      [] (fields.flatMap fun f => countField ("_args." ++ f.name ++ " !== undefined")) l :=
    .flatMap (fun f => .countField _) fields
  have hchecks : Shows s l _ [] _ l := .pair "if (_fieldsSet === 0) \x7b"
    "\x7d else if (_fieldsSet > 1) \x7b" "\x7d"
    (.refused "INVALID_DATA" (quote ("Union " ++ struct ++ " was decoded with no field set")))
    (.refused "INVALID_DATA" ("`Union " ++ struct ++ " was decoded with " ++ fieldsSet ++
      " fields set`"))
  have hlines := ((Shows.one "let _fieldsSet: number = 0;").append hcounts).append hchecks
  simpa [unionParts, unionChecks, fieldsSet, String.append_assoc] using hlines

theorem shows_defaults (fields : List FieldInit) :
    Shows s l (defaultParts fields) [] (defaults fields) l := by
  refine .flatMap (fun f => ?_) fields
  cases f.default with
  | none => exact .done
  | some v => exact .under (by simp only [String.append_assoc]; rfl) (.one _)

theorem shows_constructLines (struct : String) (kind : StructKind) (fields : List FieldInit) :
    Shows s l (constructParts struct kind fields) [] (constructLines struct kind fields) l := by
  have hrequired : Shows s l (requiredParts struct fields) [] (requiredChecks struct fields) l :=
    .flatMap (fun f => .refusal _ _ _) _
  have hunion : Shows s l (if kind = .union then unionParts struct fields else []) []
      (if kind = .union then unionChecks struct fields else []) l := by
    split
    · exact shows_unionChecks struct fields
    · exact .done
  exact ((hrequired.append hunion).append (shows_defaults fields)).append (.one _)

theorem shows_singleFieldLines (source : Expr) (struct : String) (fields : List String) :
    Shows s l (singleParts source struct fields) [] (singleFieldLines source struct fields) l := by
  have hcounts : Shows s l
      (fields.flatMap fun f =>
        under (exprText source ++ "." ++ f ++ " != null") [line "_fieldsSet++;"])
      [] (fields.flatMap fun f => countField (exprText (.field source f) ++ " != null")) l :=
    .flatMap (fun f => .countField _) fields
  have htest : Shows s l _ [] _ l := .refusal "_fieldsSet !== 1" "INVALID_DATA"
    ("`Union " ++ struct ++ " must have exactly one field set, found " ++ fieldsSet ++ "`")
  have hlines := ((Shows.one "let _fieldsSet: number = 0;").append hcounts).append htest
  simpa [singleParts, singleFieldLines, fieldsSet, String.append_assoc] using hlines

end

mutual

/-- A statement in front of others. -/
theorem shows_stmtLines (s : Scene) (stmt : Stmt) (l : Locals) {l' : Locals}
    {code stmts : List Stmt} {pieces : List Piece}
    (more : Shows s (stmtLines s stmt l).2 [.body code] stmts pieces l') :
    Shows s l [.body (stmt :: code)] (stmt.walk ++ stmts) ((stmtLines s stmt l).1 ++ pieces)
      l' := by
  cases stmt with
  | loop body =>
    have hbody := shows_blockLines s body l
    exact .opened rfl ((Shows.braced "while (true)" rfl hbody).append more)
  | «switch» header cases default =>
    have hcases := shows_casesLines s cases l
    have hdefault := Shows.braced "default:" rfl
      (shows_blockLines s default (casesLines s cases l).2)
    have hhead : "switch (" ++ header ++ ".fieldId)" ++ " \x7b" =
        "switch (" ++ header ++ ".fieldId) \x7b" := by simp [String.append_assoc]
    exact .opened rfl ((Shows.braced _ hhead (hcases.append hdefault)).append more)
  | ifWireType header expected matching otherwise =>
    have hmatching := shows_blockLines s matching l
    have hotherwise := shows_blockLines s otherwise (blockLines s matching l).2
    have htest : "if (" ++ (header ++ ".fieldType === " ++ tagOf expected) ++ ")" =
        "if (" ++ header ++ ".fieldType === " ++ tagOf expected ++ ")" := by
      simp only [String.append_assoc]
    refine .opened rfl (Shows.append ?_ more)
    cases otherwise with
    | nil =>
      rw [Stmt.walkAll, List.append_nil]
      exact .under htest hmatching
    | cons first otherwise =>
      have hpair := Shows.pair ("if (" ++ header ++ ".fieldType === " ++ tagOf expected ++ ") \x7b")
        "\x7d else \x7b" "\x7d" hmatching hotherwise
      simpa [stmtLines, Scene.below, Scene.parts, String.append_assoc] using hpair
  | breakIfStop header =>
    have htest : "if (" ++ (header ++ ".fieldType === thrift.TType.STOP") ++ ")" =
        "if (" ++ header ++ ".fieldType === thrift.TType.STOP)" := by simp [String.append_assoc]
    exact .opened rfl ((Shows.under htest (.one "break;")).append more)
  | repeated metadata counter body =>
    have hhead : "for (let " ++ counter ++ " = 0; " ++ counter ++ " < " ++ metadata ++ ".size; " ++
        counter ++ "++)" ++ " \x7b" = "for (let " ++ counter ++ " = 0; " ++ counter ++ " < " ++
          metadata ++ ".size; " ++ counter ++ "++) \x7b" := by simp [String.append_assoc]
    exact .opened rfl ((Shows.braced _ hhead (shows_blockLines s body l)).append more)
  | construct struct kind fields =>
    exact .opened rfl ((shows_constructLines struct kind fields).append more)
  | forEach kind source key value body =>
    have hbody := shows_blockLines s body (s.below l (.forEach kind source key value body))
    exact .opened rfl ((Shows.block _ _ hbody).append more)
  | ifPresent source body =>
    have htest : "if (" ++ (exprText source ++ " != null") ++ ")" =
        "if (" ++ exprText source ++ " != null)" := by simp [String.append_assoc]
    exact .opened rfl ((Shows.under htest (shows_blockLines s body l)).append more)
  | requirePresent source field => exact .opened rfl ((Shows.refusal _ _ _).append more)
  | requireSingleField source struct fields =>
    exact .opened rfl ((shows_singleFieldLines source struct fields).append more)
  | newContainer kind dest => exact .opened rfl (.piece more)
  | insert kind container key value =>
    cases kind with
    | map => cases key with
      | none => exact .opened rfl (.piece more)
      | some key => exact .opened rfl (.piece more)
    | _ => exact .opened rfl (.piece more)
  | stage field value => exact .opened rfl (.piece more)
  | read codec dest =>
    cases codec with
    | scalar kind => exact .call rfl more
    | struct name => exact .call rfl more
  | write codec source =>
    cases codec with
    | scalar kind => exact .call rfl more
    | struct name => exact .call rfl more
  | writeContainerBegin kind source =>
    cases kind with
    | list element => exact .call rfl more
    | set element => exact .call rfl more
    | map key value => exact .call rfl more
  | _ => exact .call rfl more

theorem shows_blockLines (s : Scene) (code : List Stmt) (l : Locals) :
    Shows s l [.body code] (Stmt.walkAll code) (blockLines s code l).1 (blockLines s code l).2 := by
  cases code with
  | nil => exact .ended .done
  | cons stmt stmts => exact shows_stmtLines s stmt l (shows_blockLines s stmts _)

theorem shows_casesLines (s : Scene) (cases : List (Int16 × List Stmt)) (l : Locals) :
    Shows s l (cases.flatMap Part.case) (Stmt.walkCases cases) (casesLines s cases l).1
      (casesLines s cases l).2 := by
  cases cases with
  | nil => exact .done
  | cons case cases =>
    obtain ⟨id, body⟩ := case
    have hbody := shows_blockLines s body l
    have hcase := Shows.halfBlock ("case " ++ toString id.toInt ++ ":")
      (hbody.append (.one "break;"))
    have hmore := shows_casesLines s cases (blockLines s body l).2
    have hall := hcase.append hmore
    rw [Stmt.walkCases]
    simpa [Part.case, casesLines] using hall

end

/-- A procedure stands for its script and for nothing else. -/
theorem shows_iff {s : Scene} {code stmts : List Stmt} {l l' : Locals} {pieces : List Piece} :
    Shows s l [.body code] stmts pieces l' ↔
      stmts = Stmt.walkAll code ∧ (pieces, l') = blockLines s code l := by
  constructor
  · intro h
    obtain ⟨hstmts, hpieces, hlocals⟩ := h.unique (shows_blockLines s code l)
    exact ⟨hstmts, Prod.ext hpieces hlocals⟩
  · rintro ⟨rfl, hlines⟩
    obtain ⟨rfl, rfl⟩ := Prod.ext_iff.mp hlines
    exact shows_blockLines s code l

/-! ## Lines and statements -/

/-- Whose line a piece is: the one line of a statement that calls the protocol, or a part of one of
the other statements. -/
inductive Belongs (s : Scene) (stmts : List Stmt) : Option Stmt → Piece → Prop
  | call {l : Locals} {stmt : Stmt} {text : String} (h : s.callLine? l stmt = some text) :
      Belongs s stmts (some stmt) (.line text)
  | part {l : Locals} {stmt : Stmt} {p : Piece} (hmem : stmt ∈ stmts) (h : stmt.isCall = false)
      (hp : .piece p ∈ s.parts l stmt) : Belongs s stmts none p

/-- Each statement that calls the protocol has one line, in the order of the statements, and every
other piece belongs to a statement that does not call it. -/
def CallsOnce (s : Scene) (stmts : List Stmt) (pieces : List Piece) : Prop :=
  ∃ owners : List (Option Stmt), List.Forall₂ (Belongs s stmts) owners pieces ∧
    owners.filterMap id = stmts.filter (·.isCall)

theorem isSome_callLine? (s : Scene) (l : Locals) (stmt : Stmt) :
    (s.callLine? l stmt).isSome = stmt.isCall := by
  cases stmt with
  | read codec => cases codec <;> rfl
  | write codec => cases codec <;> rfl
  | writeContainerBegin kind => cases kind <;> rfl
  | _ => rfl

theorem Shows.owners {s : Scene} {l l' : Locals} {ps : List Part} {stmts all : List Stmt}
    {pieces : List Piece} (h : Shows s l ps stmts pieces l') (hall : ∀ stmt ∈ stmts, stmt ∈ all)
    (hps : ∀ p, .piece p ∈ ps → Belongs s all none p) :
    ∃ owners : List (Option Stmt), List.Forall₂ (Belongs s all) owners pieces ∧
      owners.filterMap id = stmts.filter (·.isCall) := by
  induction h with
  | done => exact ⟨[], .nil, rfl⟩
  | piece _ ih =>
    obtain ⟨owners, hbelongs, hcalls⟩ := ih hall fun p hp => hps p (List.mem_cons_of_mem _ hp)
    exact ⟨none :: owners, .cons (hps _ List.mem_cons_self) hbelongs, hcalls⟩
  | ended _ ih => exact ih hall fun p hp => hps p (List.mem_cons_of_mem _ hp)
  | @call l _ stmt _ code rest _ _ hcall _ ih =>
    have hrest : ∀ p, .piece p ∈ .body code :: rest → Belongs s all none p := by
      intro p hp
      exact hps p (by simpa using hp)
    obtain ⟨owners, hbelongs, hcalls⟩ := ih (List.forall_mem_cons.mp hall).2 hrest
    have hcalling : stmt.isCall = true := by rw [← isSome_callLine? s l, hcall]; rfl
    refine ⟨some stmt :: owners, .cons (.call hcall) hbelongs, ?_⟩
    rw [List.filter_cons_of_pos hcalling, ← hcalls]
    rfl
  | @opened l _ stmt code rest _ _ hnone _ ih =>
    have hquiet : stmt.isCall = false := by rw [← isSome_callLine? s l, hnone]; rfl
    obtain ⟨hmem, hmore⟩ := List.forall_mem_cons.mp hall
    have hrest : ∀ p, .piece p ∈ s.parts l stmt ++ .body code :: rest → Belongs s all none p := by
      intro p hp
      rcases List.mem_append.mp hp with hp | hp
      · exact .part hmem hquiet hp
      · exact hps p (by simpa using hp)
    obtain ⟨owners, hbelongs, hcalls⟩ := ih hmore hrest
    rw [List.filter_cons_of_neg (by simp [hquiet])]
    exact ⟨owners, hbelongs, hcalls⟩

theorem callsOnce_blockLines (s : Scene) (code : List Stmt) (l : Locals) :
    CallsOnce s (Stmt.walkAll code) (blockLines s code l).1 :=
  (shows_blockLines s code l).owners (fun _ h => h) (by simp)

/-! ## Levels -/

/-- The pieces end at the level where they begin and are never below it, so that no block ends
that they did not begin. -/
structure KeepsLevel (pieces : List Piece) : Prop where
  returns (level : Nat) : levelAfter pieces level = level
  above (level : Nat) {before after : List Piece} {piece : Piece}
    (h : pieces = before ++ piece :: after) : level ≤ levelAfter before level
  inside (level : Nat) {before after : List Piece} (h : pieces = before ++ .dedent :: after) :
    level < levelAfter before level

/-- What comes before a piece among the pieces of two lists. -/
theorem split_append {ps qs before after : List Piece} {piece : Piece}
    (h : ps ++ qs = before ++ piece :: after) :
    (∃ after', ps = before ++ piece :: after') ∨
      ∃ before', before = ps ++ before' ∧ qs = before' ++ piece :: after := by
  rcases List.append_eq_append_iff.mp h with ⟨before', hbefore, hqs⟩ | ⟨rest, hps, hrest⟩
  · exact .inr ⟨before', hbefore, hqs⟩
  · cases rest with
    | nil => exact .inr ⟨[], by simpa using hps.symm, hrest.symm⟩
    | cons p rest =>
      obtain ⟨rfl, -⟩ := List.cons_eq_cons.mp hrest
      exact .inl ⟨rest, hps⟩

namespace KeepsLevel

variable {ps qs : List Piece}

theorem append (hp : KeepsLevel ps) (hq : KeepsLevel qs) : KeepsLevel (ps ++ qs) where
  returns level := by rw [levelAfter_append, hp.returns, hq.returns]
  above level before after piece h := by
    rcases split_append h with ⟨_, hps⟩ | ⟨before', rfl, hqs⟩
    · exact hp.above level hps
    · rw [levelAfter_append, hp.returns]
      exact hq.above level hqs
  inside level before after h := by
    rcases split_append h with ⟨_, hps⟩ | ⟨before', rfl, hqs⟩
    · exact hp.inside level hps
    · rw [levelAfter_append, hp.returns]
      exact hq.inside level hqs

/-- A piece that does not end a block, alone. -/
theorem one {piece : Piece} (h : ∀ level, piece.level level = level) (hends : piece ≠ .dedent) :
    KeepsLevel [piece] where
  returns := h
  above level before after _ heq := by
    obtain ⟨rfl, -⟩ | ⟨_, -, hrest⟩ := List.cons_eq_append_iff.mp heq
    · exact level.le_refl
    · simp at hrest
  inside level before after heq := by
    obtain ⟨rfl, hpiece⟩ | ⟨_, -, hrest⟩ := List.cons_eq_append_iff.mp heq
    · exact absurd (List.cons_eq_cons.mp hpiece).1.symm hends
    · simp at hrest

theorem block {body : List Piece} (h : KeepsLevel body) :
    KeepsLevel ([.indent] ++ body ++ [.dedent]) := by
  -- Up to the end of the block everything is one level deeper.
  have hdeeper : ∀ (level : Nat) {before after : List Piece} {piece : Piece},
      body ++ [.dedent] = before ++ piece :: after → level + 1 ≤ levelAfter before (level + 1) := by
    intro level before after piece heq
    rcases split_append heq with ⟨_, hbody⟩ | ⟨before', rfl, hend⟩
    · exact h.above (level + 1) hbody
    · obtain ⟨rfl, -⟩ | ⟨_, -, hrest⟩ := List.cons_eq_append_iff.mp hend
      · rw [List.append_nil]
        exact Nat.le_of_eq (h.returns (level + 1)).symm
      · simp at hrest
  constructor
  · intro level
    rw [levelAfter_append, levelAfter_append, h.returns]
    rfl
  · intro level before after piece heq
    obtain ⟨rfl, -⟩ | ⟨before', rfl, hrest⟩ := List.cons_eq_append_iff.mp heq
    · exact level.le_refl
    · exact Nat.le_of_succ_le (hdeeper level hrest)
  · intro level before after heq
    obtain ⟨rfl, hpiece⟩ | ⟨before', rfl, hrest⟩ := List.cons_eq_append_iff.mp heq
    · cases hpiece
    · exact hdeeper level hrest

end KeepsLevel

theorem Nested.keepsLevel {pieces : List Piece} (h : Nested pieces) : KeepsLevel pieces := by
  induction h with
  | nil => exact ⟨fun _ => rfl, by simp, by simp⟩
  | line text => exact .one (fun _ => rfl) (by simp)
  | blank => exact .one (fun _ => rfl) (by simp)
  | block _ ih => exact ih.block
  | append _ _ ihp ihq => exact ihp.append ihq

/-- How a book is written. -/
def bookWriting : List Piece :=
  [.line "if (this.title == null) \x7b", .indent,
    .line ("throw new thrift.TProtocolException(thrift.TProtocolExceptionType.UNKNOWN, " ++
      "\"Required field title is unset!\");"), .dedent, .line "\x7d",
    .line "output.writeStructBegin(\"Book\");", .line "if (this.title != null) \x7b", .indent,
    .line "output.writeFieldBegin(\"title\", thrift.TType.STRING, 1);",
    .line "output.writeString(this.title);", .line "output.writeFieldEnd();", .dedent,
    .line "\x7d", .line "output.writeFieldStop();", .line "output.writeStructEnd();"]

end Script

end Thrift
