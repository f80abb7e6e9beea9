-- Structs as classes, with their procedures as methods.
import Thrift.Codec.Compile
import Thrift.Script.Expression
import Thrift.Script.Layout

namespace Thrift.Script

/-! ## Types of locals -/

/-- The declared types of locals, as far as they are known. -/
abbrev Locals := List (String × FieldType)

def Locals.bind (l : Locals) (name : String) (type : FieldType) : Locals :=
  (name, type) :: l.filter (·.1 != name)

/-- What a typedef stands for; other types stand for themselves. -/
def opened (t : SymbolTable) (type : FieldType) : FieldType :=
  match type with
  | .identifier name =>
    match t.resolveType name with
    | .ok (.typedef _ underlying) => underlying
    | _ => type
  | _ => type

/-- Gives the elements of a container their types. -/
def bindElements (t : SymbolTable) (container : FieldType) (key : Option String) (value : String)
    (l : Locals) : Locals :=
  match opened t container with
  | .list element => l.bind value element
  | .set element => l.bind value element
  | .map keyType element =>
    match key with
    | some key => (l.bind key keyType).bind value element
    | none => l.bind value element
  | _ => l

def fieldType? (c : StructCodec) (name : String) : Option FieldType :=
  (c.fields.find? (·.name == name)).map (·.type)

/-- The types of the locals that are kept as fields. -/
def stagedLocals (c : StructCodec) : Locals :=
  (Stmt.walkAll c.decode).foldl (fun l s =>
    match s with
    | .stage field value =>
      match fieldType? c field with
      | some type => l.bind value type
      | none => l
    | _ => l) []

/-- An element that is put into a container. -/
structure Insertion where
  container : String
  key : Option String
  value : String

def insertions (stmts : List Stmt) : List Insertion :=
  (Stmt.walkAll stmts).filterMap fun
    | .insert _ container key value => some ⟨container, key, value⟩
    | _ => none

/-- An element gets its type once the type of its container is known. -/
def bindInsertion (t : SymbolTable) (l : Locals) (i : Insertion) : Locals :=
  if (l.lookup i.value).isSome then l
  else
    match l.lookup i.container with
    | some type => bindElements t type i.key i.value l
    | none => l

/-- Goes over all insertions until no local gets a type; every round but the last gives one to
some element, so their number bounds the rounds. -/
def spread (t : SymbolTable) (all : List Insertion) : Nat → Locals → Locals
  | 0, l => l
  | rounds + 1, l =>
    let next := all.foldl (bindInsertion t) l
    if next.length = l.length then l else spread t all rounds next

/-- The types of the locals of a decode procedure. They are known where a local is kept as a
field, and go from there into the elements of containers. -/
def decodeLocals (t : SymbolTable) (c : StructCodec) : Locals :=
  let all := insertions c.decode
  spread t all (all.length + 1) (stagedLocals c)

/-! ## Statements -/

/-- The struct whose procedures are written, and the definitions around it. -/
structure Scene where
  symbols : SymbolTable
  codec : StructCodec

def Scene.localType (s : Scene) (l : Locals) (name : String) : Option String :=
  (l.lookup name).map fun type => typeOf (opened s.symbols type)

/-- The declared type of an expression, where it has one. -/
def Scene.exprType (s : Scene) (l : Locals) : Expr → Option FieldType
  | .bound name => l.lookup name
  | .field .this name => fieldType? s.codec name
  | _ => none

/-- Refuses what is read unless the condition fails. -/
def refusal (condition kind message : String) : List Piece :=
  braced ("if (" ++ condition ++ ")") [.line (throwProtocol kind message)]

def countField (place : String) : List Piece :=
  braced ("if (" ++ place ++ ")") [.line "_fieldsSet++;"]

/-- The number of fields that are set, inside a template. -/
def fieldsSet : String := "$\x7b_fieldsSet\x7d"

def requiredChecks (struct : String) (fields : List FieldInit) : List Piece :=
  (fields.filter (·.required)).flatMap fun f =>
    refusal ("_args." ++ f.name ++ " === undefined") "UNKNOWN"
      (quote ("Unable to read " ++ struct ++ " from input"))

def unionChecks (struct : String) (fields : List FieldInit) : List Piece :=
  [.line "let _fieldsSet: number = 0;"] ++
    (fields.flatMap fun f => countField ("_args." ++ f.name ++ " !== undefined")) ++
    chained
      [("if (_fieldsSet === 0) \x7b", [.line (throwProtocol "INVALID_DATA"
        (quote ("Union " ++ struct ++ " was decoded with no field set")))]),
      ("\x7d else if (_fieldsSet > 1) \x7b", [.line (throwProtocol "INVALID_DATA"
        ("`Union " ++ struct ++ " was decoded with " ++ fieldsSet ++ " fields set`"))])] "\x7d"

def defaults (fields : List FieldInit) : List Piece :=
  fields.flatMap fun f =>
    match f.default with
    | some v =>
      braced ("if (_args." ++ f.name ++ " === undefined)")
        [.line ("_args." ++ f.name ++ " = " ++ literal v ++ ";")]
    | none => []

def constructLines (struct : String) (kind : StructKind) (fields : List FieldInit) : List Piece :=
  requiredChecks struct fields ++
    (if kind = .union then unionChecks struct fields else []) ++
    defaults fields ++ [.line ("return new " ++ struct ++ "(_args);")]

def containerBegin (kind : ContainerKind) (source : String) : String :=
  match kind with
  | .list element => "output.writeListBegin(" ++ tagOf element ++ ", " ++ source ++ ".length);"
  | .set element => "output.writeSetBegin(" ++ tagOf element ++ ", " ++ source ++ ".size);"
  | .map key value =>
    "output.writeMapBegin(" ++ tagOf key ++ ", " ++ tagOf value ++ ", " ++ source ++ ".size);"

def insertLine (kind : ContainerKind) (container : String) (key : Option String)
    (value : String) : String :=
  match kind, key with
  | .map _ _, some key => container ++ ".set(" ++ key ++ ", " ++ value ++ ");"
  | .set _, _ => container ++ ".add(" ++ value ++ ");"
  | _, _ => container ++ ".push(" ++ value ++ ");"

def readExpr : ValueCodec → String
  | .scalar kind => "input.read" ++ kind.suffix ++ "()"
  | .struct name => name ++ ".read(input)"

def writeLine (codec : ValueCodec) (source : String) : String :=
  match codec with
  | .scalar kind => "output.write" ++ kind.suffix ++ "(" ++ source ++ ");"
  | .struct _ => source ++ ".write(output);"

/-- The parameters of the function that is called for each element. -/
def elementParams (s : Scene) (l : Locals) (key : Option String) (value : String) : String :=
  let param name := name ++ ": " ++ (s.localType l name).getD "any"
  match key with
  | some key => param value ++ ", " ++ param key
  | none => param value

def singleFieldLines (source : Expr) (struct : String) (fields : List String) : List Piece :=
  [.line "let _fieldsSet: number = 0;"] ++
    (fields.flatMap fun f => countField (exprText (.field source f) ++ " != null")) ++
    refusal "_fieldsSet !== 1" "INVALID_DATA"
      ("`Union " ++ struct ++ " must have exactly one field set, found " ++ fieldsSet ++ "`")

mutual

/-- The lines of a statement, and the types of locals after it. -/
def stmtLines (s : Scene) : Stmt → Locals → List Piece × Locals
  | .readStructBegin, l => ([.line "input.readStructBegin();"], l)
  | .readStructEnd, l => ([.line "input.readStructEnd();"], l)
  | .readFieldBegin header, l =>
    ([.line ("const " ++ header ++ ": thrift.IThriftField = input.readFieldBegin();")], l)
  | .readFieldEnd, l => ([.line "input.readFieldEnd();"], l)
  | .readContainerBegin kind metadata, l =>
    ([.line ("const " ++ metadata ++ ": thrift.IThrift" ++ kind.name ++ " = input.read" ++
      kind.name ++ "Begin();")], l)
  | .readContainerEnd kind, l => ([.line ("input.read" ++ kind.name ++ "End();")], l)
  | .read codec dest, l =>
    ([.line ("const " ++ dest ++ ": " ++ (s.localType l dest).getD (codecType codec) ++ " = " ++
      readExpr codec ++ ";")], l)
  | .newContainer kind dest, l =>
    let type := (s.localType l dest).getD (anyContainer kind)
    ([.line ("const " ++ dest ++ ": " ++ type ++ " = new " ++ type ++ "();")], l)
  | .insert kind container key value, l => ([.line (insertLine kind container key value)], l)
  | .skip header, l => ([.line ("input.skip(" ++ header ++ ".fieldType);")], l)
  | .loop body, l =>
    let (lines, l) := blockLines s body l
    (braced "while (true)" lines, l)
  | .breakIfStop header, l =>
    (braced ("if (" ++ header ++ ".fieldType === thrift.TType.STOP)") [.line "break;"], l)
  | .switch header cases default, l =>
    let (caseLines, l) := casesLines s cases l
    let (defaultLines, l) := blockLines s default l
    (braced ("switch (" ++ header ++ ".fieldId)")
      (caseLines ++ braced "default:" defaultLines), l)
  | .ifWireType header expected matching otherwise, l =>
    let head := "if (" ++ header ++ ".fieldType === " ++ tagOf expected ++ ")"
    let (matchingLines, l) := blockLines s matching l
    let (otherwiseLines, l) := blockLines s otherwise l
    (if otherwise.isEmpty then braced head matchingLines
      else chained [(head ++ " \x7b", matchingLines), ("\x7d else \x7b", otherwiseLines)] "\x7d", l)
  | .repeated metadata counter body, l =>
    let (lines, l) := blockLines s body l
    (braced ("for (let " ++ counter ++ " = 0; " ++ counter ++ " < " ++ metadata ++ ".size; " ++
      counter ++ "++)") lines, l)
  | .stage field value, l => ([.line ("_args." ++ field ++ " = " ++ value ++ ";")], l)
  | .construct struct kind fields, l => (constructLines struct kind fields, l)
  | .writeStructBegin name, l => ([.line ("output.writeStructBegin(" ++ quote name ++ ");")], l)
  | .writeStructEnd, l => ([.line "output.writeStructEnd();"], l)
  | .writeFieldBegin name type id, l =>
    ([.line ("output.writeFieldBegin(" ++ quote name ++ ", " ++ tagOf type ++ ", " ++
      toString id.toInt ++ ");")], l)
  | .writeFieldEnd, l => ([.line "output.writeFieldEnd();"], l)
  | .writeFieldStop, l => ([.line "output.writeFieldStop();"], l)
  | .writeContainerBegin kind source, l => ([.line (containerBegin kind (exprText source))], l)
  | .writeContainerEnd kind, l => ([.line ("output.write" ++ kind.name ++ "End();")], l)
  | .write codec source, l => ([.line (writeLine codec (exprText source))], l)
  | .forEach _ source key value body, l =>
    let l := match s.exprType l source with
      | some container => bindElements s.symbols container key value l
      | none => l
    let params := elementParams s l key value
    let (lines, l) := blockLines s body l
    (enclosed (exprText source ++ ".forEach((" ++ params ++ "): void => \x7b") lines "\x7d);", l)
  | .ifPresent source body, l =>
    let (lines, l) := blockLines s body l
    (braced ("if (" ++ exprText source ++ " != null)") lines, l)
  | .requirePresent source field, l =>
    (refusal (exprText source ++ " == null") "UNKNOWN"
      (quote ("Required field " ++ field ++ " is unset!")), l)
  | .requireSingleField source struct fields, l => (singleFieldLines source struct fields, l)

def blockLines (s : Scene) : List Stmt → Locals → List Piece × Locals
  | [], l => ([], l)
  | stmt :: stmts, l =>
    let (lines, l) := stmtLines s stmt l
    let (more, l) := blockLines s stmts l
    (lines ++ more, l)

def casesLines (s : Scene) : List (Int16 × List Stmt) → Locals → List Piece × Locals
  | [], l => ([], l)
  | (id, body) :: cases, l =>
    let (lines, l) := blockLines s body l
    let (more, l) := casesLines s cases l
    ([.line ("case " ++ toString id.toInt ++ ":"), .indent] ++ lines ++
      [.line "break;", .dedent] ++ more, l)

end

/-! ## Classes -/

/-- The fields that a class has. -/
def visibleFields (c : StructCodec) : List FieldLayout := c.fields.filter (!·.isVoid)

/-- An optional field or argument. -/
def optionalMember (f : FieldLayout) : String := f.name ++ "?: " ++ typeOf f.type

def constructorLines (fields : List FieldLayout) : List Piece :=
  let params := "; ".intercalate (fields.map optionalMember)
  braced ("constructor(args: \x7b " ++ params ++ " \x7d = \x7b\x7d)")
    (fields.flatMap fun f =>
      braced ("if (args." ++ f.name ++ " != null)")
        [.line ("this." ++ f.name ++ " = args." ++ f.name ++ ";")])

def classLines (t : SymbolTable) (c : StructCodec) : List Piece :=
  let fields := visibleFields c
  let scene : Scene := ⟨t, c⟩
  braced ("export class " ++ c.name)
    ((fields.map fun f => .line ("public " ++ optionalMember f ++ ";")) ++
      constructorLines fields ++
      braced "public write(output: thrift.TProtocol): void"
        ((blockLines scene c.encode []).1 ++ [.line "return;"]) ++
      braced ("public static read(input: thrift.TProtocol): " ++ c.name)
        ([.line "const _args: any = \x7b\x7d;"] ++
          (blockLines scene c.decode (decodeLocals t c)).1))

end Thrift.Script
