-- Procedures: statement trees that decode or encode the fields of one struct. A machine runs
-- them and a script shows them, so both views of a codec come from one tree.
import Thrift.Schema.Document
import Thrift.Value.Basic
import Thrift.Wire.Kind

namespace Thrift

/-! ## What is moved across the wire -/

inductive ScalarKind
  | bool
  | byte
  | i16
  | i32
  | i64
  | double
  | string
  | binary
deriving DecidableEq, Repr

namespace ScalarKind

def all : List ScalarKind := [bool, byte, i16, i32, i64, double, string, binary]

def wireType : ScalarKind → WireType
  | bool => .bool
  | byte => .byte
  | i16 => .i16
  | i32 => .i32
  | i64 => .i64
  | double => .double
  | string => .string
  | binary => .string

/-- How the name of a reading or writing method ends. -/
def suffix : ScalarKind → String
  | bool => "Bool"
  | byte => "Byte"
  | i16 => "I16"
  | i32 => "I32"
  | i64 => "I64"
  | double => "Double"
  | string => "String"
  | binary => "Binary"

def word : ScalarKind → String
  | bool => "bool"
  | byte => "byte"
  | i16 => "i16"
  | i32 => "i32"
  | i64 => "i64"
  | double => "double"
  | string => "string"
  | binary => "binary"

end ScalarKind

/-- How one value is moved: as a scalar, or by the procedures of a struct. -/
inductive ValueCodec
  | scalar (kind : ScalarKind)
  | struct (name : String)
deriving DecidableEq, Repr

/-- A container and the tags of what it holds. -/
inductive ContainerKind
  | list (element : WireType)
  | set (element : WireType)
  | map (key value : WireType)
deriving DecidableEq, Repr

namespace ContainerKind

def name : ContainerKind → String
  | list _ => "List"
  | set _ => "Set"
  | map _ _ => "Map"

def word : ContainerKind → String
  | list _ => "list"
  | set _ => "set"
  | map _ _ => "map"

def wireType : ContainerKind → WireType
  | list _ => .list
  | set _ => .set
  | map _ _ => .map

end ContainerKind

/-- Where an encoded value is found. -/
inductive Expr
  | this
  | bound (name : String)
  | field (base : Expr) (name : String)
deriving DecidableEq, Repr

/-! ## Statements -/

/-- A field that a finished struct may have, by its wire id. -/
structure FieldInit where
  name : String
  id : Int16
  required : Bool
  default : Option Value

inductive Stmt
  | readStructBegin
  | readStructEnd
  /-- Binds the next field header. -/
  | readFieldBegin (header : String)
  | readFieldEnd
  | readContainerBegin (kind : ContainerKind) (metadata : String)
  | readContainerEnd (kind : ContainerKind)
  | read (codec : ValueCodec) (dest : String)
  | newContainer (kind : ContainerKind) (dest : String)
  | insert (kind : ContainerKind) (container : String) (key : Option String) (value : String)
  /-- Passes over a value of the type that the header tells. -/
  | skip (header : String)
  | loop (body : List Stmt)
  | breakIfStop (header : String)
  | switch (header : String) (cases : List (Int16 × List Stmt)) (default : List Stmt)
  | ifWireType (header : String) (expected : WireType) (matching otherwise : List Stmt)
  /-- Runs the body once for each announced element. -/
  | repeated (metadata counter : String) (body : List Stmt)
  /-- Keeps a decoded field for the end. -/
  | stage (field value : String)
  | construct (struct : String) (kind : StructKind) (fields : List FieldInit)
  | writeStructBegin (name : String)
  | writeStructEnd
  | writeFieldBegin (name : String) (type : WireType) (id : Int16)
  | writeFieldEnd
  | writeFieldStop
  | writeContainerBegin (kind : ContainerKind) (source : Expr)
  | writeContainerEnd (kind : ContainerKind)
  | write (codec : ValueCodec) (source : Expr)
  /-- Binds each element, and in a map its key, and runs the body. -/
  | forEach (kind : ContainerKind) (source : Expr) (key : Option String) (value : String)
      (body : List Stmt)
  | ifPresent (source : Expr) (body : List Stmt)
  | requirePresent (source : Expr) (field : String)
  /-- Exactly one of the fields must be set. -/
  | requireSingleField (source : Expr) (struct : String) (fields : List String)
deriving Inhabited

namespace Stmt

def op : Stmt → String
  | readStructBegin => "ReadStructBegin"
  | readStructEnd => "ReadStructEnd"
  | readFieldBegin _ => "ReadFieldBegin"
  | readFieldEnd => "ReadFieldEnd"
  | readContainerBegin _ _ => "ReadContainerBegin"
  | readContainerEnd _ => "ReadContainerEnd"
  | read _ _ => "Read"
  | newContainer _ _ => "NewContainer"
  | insert _ _ _ _ => "Insert"
  | skip _ => "Skip"
  | loop _ => "Loop"
  | breakIfStop _ => "BreakIfStop"
  | switch _ _ _ => "Switch"
  | ifWireType _ _ _ _ => "IfWireType"
  | repeated _ _ _ => "Repeat"
  | stage _ _ => "Stage"
  | construct _ _ _ => "Construct"
  | writeStructBegin _ => "WriteStructBegin"
  | writeStructEnd => "WriteStructEnd"
  | writeFieldBegin _ _ _ => "WriteFieldBegin"
  | writeFieldEnd => "WriteFieldEnd"
  | writeFieldStop => "WriteFieldStop"
  | writeContainerBegin _ _ => "WriteContainerBegin"
  | writeContainerEnd _ => "WriteContainerEnd"
  | write _ _ => "Write"
  | forEach _ _ _ _ _ => "ForEach"
  | ifPresent _ _ => "IfPresent"
  | requirePresent _ _ => "RequirePresent"
  | requireSingleField _ _ _ => "RequireSingleField"

/-! ## Walking a tree -/

mutual

/-- A statement and all statements below it, each one before those below it. -/
def walk : Stmt → List Stmt
  | loop body => loop body :: walkAll body
  | repeated metadata counter body => repeated metadata counter body :: walkAll body
  | forEach kind source key value body => forEach kind source key value body :: walkAll body
  | ifPresent source body => ifPresent source body :: walkAll body
  | switch header cases default =>
    switch header cases default :: (walkCases cases ++ walkAll default)
  | ifWireType header expected matching otherwise =>
    ifWireType header expected matching otherwise :: (walkAll matching ++ walkAll otherwise)
  | s => [s]

def walkAll : List Stmt → List Stmt
  | [] => []
  | s :: ss => s.walk ++ walkAll ss

def walkCases : List (Int16 × List Stmt) → List Stmt
  | [] => []
  | (_, body) :: cases => walkAll body ++ walkCases cases

end

end Stmt

end Thrift
