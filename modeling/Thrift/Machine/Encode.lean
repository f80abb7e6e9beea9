-- Running encode procedures over an instance of a struct.
import Thrift.Codec.Compile
import Thrift.Text.Quoted
import Thrift.Wire.Writer

namespace Thrift

/-- An expression as a diagnostic shows it. -/
def Expr.shown : Expr → String
  | this => "This"
  | bound name => "Local \x7b name: " ++ Text.quoted name ++ " \x7d"
  | field base name =>
    "Field \x7b base: " ++ base.shown ++ ", name: " ++ Text.quoted name ++ " \x7d"

namespace Machine

/-! ## Finding values -/

/-- The instance that is encoded, and the elements that loops have bound. -/
structure Sight where
  this : StructValue
  elements : List (String × Value)

/-- Binds a name, which drops what it was bound to before. -/
def Sight.bind (s : Sight) (name : String) (v : Value) : Sight :=
  { s with elements := (name, v) :: s.elements.filter (·.1 != name) }

def mistaken {α : Type} (expected : String) (found : Value) : Except Fault α :=
  .error (.protocol (.wrongValue expected found.typeName))

def unfit {α : Type} (cause : ProcedureFault) : Except Fault α :=
  .error (.codegen (.procedure cause))

/-- The value at an expression. A field that is not set has none. -/
def find (s : Sight) : Expr → Except Fault (Option Value)
  | .this => unfit .structAsField
  | .bound name =>
    match s.elements.lookup name with
    | some v => .ok (some v)
    | none => unfit (.notBound name)
  | .field .this name => .ok (s.this.get? name)
  | .field base name => do
    match ← find s base with
    | none => unfit (.noValue base.shown)
    | some v =>
      match v.asStruct with
      | some inner => return inner.get? name
      | none => mistaken "struct" v

/-- The value at an expression, which must have one. -/
def require (s : Sight) (e : Expr) : Except Fault Value := do
  match ← find s e with
  | some v => return v
  | none => unfit (.noValue e.shown)

/-- The struct at an expression. -/
def structAt (s : Sight) : Expr → Except Fault StructValue
  | .this => .ok s.this
  | e => do
    let v ← require s e
    match v.asStruct with
    | some inner => return inner
    | none => mistaken "struct" v

/-- A void value counts as not set. -/
def isPresent : Option Value → Bool
  | some v => !v.isVoid
  | none => false

/-! ## Writing values -/

/-- Goes on with a value that was found, or stops. -/
def given {α β : Type} (r : Except Fault α) (next : α → Writing β) : Writing β :=
  match r with
  | .ok a => next a
  | .error fault => Writing.stop fault

/-- A scalar is written as the kind that it is. -/
def writeScalar : ScalarKind → Value → Writing Unit
  | .bool, .bool b => Writing.bool b
  | .byte, .byte v => Writing.byte v
  | .i16, .i16 v => Writing.i16 v
  | .i32, .i32 v => Writing.i32 v
  | .i64, .i64 v => Writing.i64 v
  | .double, .double v => Writing.double v
  | .string, .string s => Writing.string s
  | .binary, .binary bs => Writing.binary bs
  | kind, v => given (mistaken kind.word v) fun _ : Unit => Writing.done ()

def writeContainerBegin : ContainerKind → Value → Writing Unit
  | .list element, .list items => Writing.elementsHeader element items.length
  | .set element, .set items => Writing.elementsHeader element items.length
  | .map key value, .map entries => Writing.entriesHeader key value entries.length
  | kind, v => given (mistaken kind.word v) fun _ : Unit => Writing.done ()

/-! ## Statements -/

/-- How a struct inside the one at hand is encoded. -/
abbrev Nested := String → StructValue → Writing Unit

def writeValue (nested : Nested) : ValueCodec → Value → Writing Unit
  | .scalar kind, v => writeScalar kind v
  | .struct name, v =>
    match v.asStruct with
    | some inner => nested name inner
    | none => given (mistaken name v) fun _ : Unit => Writing.done ()

/-- Runs the body for each element. -/
def overItems (body : Sight → Writing Sight) (name : String) :
    List Value → Sight → Writing Sight
  | [], s => return s
  | v :: vs, s => do
    let s ← body (s.bind name v)
    overItems body name vs s

/-- Runs the body for each entry. -/
def overEntries (body : Sight → Writing Sight) (key name : String) :
    List (Value × Value) → Sight → Writing Sight
  | [], s => return s
  | (k, v) :: es, s => do
    let s ← body ((s.bind key k).bind name v)
    overEntries body key name es s

/-- Runs the body for each element of a container. Only the entries of maps have keys. -/
def overContainer (body : Sight → Writing Sight) (key : Option String) (name : String)
    (container : Value) (s : Sight) : Writing Sight :=
  match container, key with
  | .list items, none => overItems body name items s
  | .set items, none => overItems body name items s
  | .map entries, some key => overEntries body key name entries s
  | v, _ => given (mistaken "container" v) fun _ : Unit => Writing.done s

mutual

/-- Runs one statement of an encode procedure. -/
def encodeStmt (nested : Nested) : Stmt → Sight → Writing Sight
  | .requireSingleField source struct fields, s =>
    given (structAt s source) fun target =>
      let found := fields.countP fun name => isPresent (target.get? name)
      if found = 1 then return s else Writing.fail (.fieldCount struct found)
  | .requirePresent source field, s =>
    given (find s source) fun v =>
      if isPresent v then return s else Writing.fail (.unsetField field)
  | .writeStructBegin _, s => return s
  | .writeStructEnd, s => return s
  | .writeFieldBegin _ type id, s => do
    Writing.fieldHeader type id
    return s
  | .writeFieldEnd, s => return s
  | .writeFieldStop, s => do
    Writing.fieldStop
    return s
  | .writeContainerBegin kind source, s =>
    given (require s source) fun v => do
      writeContainerBegin kind v
      return s
  | .writeContainerEnd _, s => return s
  | .write codec source, s =>
    given (require s source) fun v => do
      writeValue nested codec v
      return s
  | .forEach _ source key value body, s =>
    given (require s source) fun v => overContainer (encodeBlock nested body) key value v s
  | .ifPresent source body, s =>
    given (find s source) fun v =>
      if isPresent v then encodeBlock nested body s else return s
  | other, _ => given (unfit (.notEncoding other.op)) fun s => Writing.done s

/-- Runs statements in order. -/
def encodeBlock (nested : Nested) : List Stmt → Sight → Writing Sight
  | [], s => return s
  | stmt :: stmts, s => do
    let s ← encodeStmt nested stmt s
    encodeBlock nested stmts s

end

/-- Runs the encode procedure of a struct; the number is how deep structs may still be nested. -/
def encodeWithin (d : Compiled) (maxDepth : Nat) : Nat → String → StructValue → Writing Unit
  | 0, name, _ => Writing.fail (.structDepth name maxDepth)
  | levels + 1, name, v =>
    match d.struct? name with
    | some codec => do
      discard (encodeBlock (encodeWithin d maxDepth levels) codec.encode ⟨v, []⟩)
    | none => Writing.stop (.codegen (.procedure (.noCodec name)))

/-- Encodes an instance as the struct of a name, whatever its own name is. -/
def encodeAs (d : Compiled) (c : WireConfig) (name : String) (v : StructValue) : Writing Unit :=
  encodeWithin d c.maxDepth c.maxDepth name v

/-- Encodes an instance as the struct of its own name. -/
def encode (d : Compiled) (c : WireConfig) (v : StructValue) : Writing Unit :=
  encodeAs d c v.name v

/-- Whether an instance can be encoded, found out before anything is sent. -/
def validateAs (d : Compiled) (maxDepth : Nat) (name : String) (v : StructValue) :
    Except Fault Unit :=
  (encodeWithin d maxDepth maxDepth name v).outcome

end Machine

end Thrift
