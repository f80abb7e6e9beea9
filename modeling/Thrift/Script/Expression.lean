-- Types, values and expressions as TypeScript.
import Thrift.Codec.Procedure
import Thrift.Json.Quoted
import Thrift.Number.Shortest
import Thrift.Schema.Names

namespace Thrift.Script

/-! ## Strings -/

/-- A character inside double quotes. -/
def quotedChar (c : Char) : String :=
  match c with
  | '"' => "\\\""
  | '\\' => "\\\\"
  | '\n' => "\\n"
  | '\r' => "\\r"
  | '\t' => "\\t"
  | c => if c.toNat < 0x20 then Json.controlEscape c else c.toString

/-- A string literal on one line. -/
def quote (s : String) : String := "\"" ++ String.join (s.toList.map quotedChar) ++ "\""

/-! ## Types -/

/-- The type of a field. A named type loses what qualifies it. -/
def typeOf : FieldType → String
  | .bool => "boolean"
  | .byte => "number"
  | .i8 => "number"
  | .i16 => "number"
  | .i32 => "number"
  | .i64 => "thrift.Int64"
  | .double => "number"
  | .string => "string"
  | .binary => "Buffer"
  | .list element => "Array<" ++ typeOf element ++ ">"
  | .set element => "Set<" ++ typeOf element ++ ">"
  | .map key value => "Map<" ++ typeOf key ++ ", " ++ typeOf value ++ ">"
  | .identifier name => baseName name
  | .void => "void"

/-- The type of a value that is read without a declared type. -/
def codecType : ValueCodec → String
  | .scalar .bool => "boolean"
  | .scalar .i64 => "thrift.Int64"
  | .scalar .string => "string"
  | .scalar .binary => "Buffer"
  | .scalar _ => "number"
  | .struct name => name

/-- The type of a container whose elements have no declared type. -/
def anyContainer : ContainerKind → String
  | .list _ => "Array<any>"
  | .set _ => "Set<any>"
  | .map _ _ => "Map<any, any>"

def tagOf (t : WireType) : String := "thrift.TType." ++ t.word

/-! ## Values -/

def commas (items : List String) : String := ", ".intercalate items

/-- A double as a literal, positional and with words for what is not finite. -/
def doubleLiteral (x : Double) : String :=
  if x.isInfinite then (if x.negative then "-Infinity" else "Infinity") else x.positional

mutual

/-- A value as an expression. -/
def literal : Value → String
  | .bool b => if b then "true" else "false"
  | .byte v => toString v.toInt
  | .i16 v => toString v.toInt
  | .i32 v => toString v.toInt
  | .i64 v => "thrift.Int64.fromDecimalString(\"" ++ toString v.toInt ++ "\")"
  | .double x => doubleLiteral x
  | .string s => quote s
  | .binary bytes => "Buffer.from([" ++ commas (bytes.map fun b => toString b.toNat) ++ "])"
  | .list items => "[" ++ commas (literals items) ++ "]"
  | .set items => "new Set([" ++ commas (literals items) ++ "])"
  | .map entries => "new Map([" ++ commas (entryLiterals entries) ++ "])"
  | .struct name fields =>
    "new " ++ name ++ "(\x7b " ++ commas (fieldLiterals fields) ++ " \x7d)"
  | .void => "undefined"

def literals : List Value → List String
  | [] => []
  | v :: vs => literal v :: literals vs

def entryLiterals : List (Value × Value) → List String
  | [] => []
  | (k, v) :: es => ("[" ++ literal k ++ ", " ++ literal v ++ "]") :: entryLiterals es

def fieldLiterals : List (String × Value) → List String
  | [] => []
  | (name, v) :: fs => (name ++ ": " ++ literal v) :: fieldLiterals fs

end

/-! ## Expressions -/

def exprText : Expr → String
  | .this => "this"
  | .bound name => name
  | .field base name => exprText base ++ "." ++ name

/-- A statement that refuses what was read or is to be written. -/
def throwProtocol (kind message : String) : String :=
  "throw new thrift.TProtocolException(thrift.TProtocolExceptionType." ++ kind ++ ", " ++
    message ++ ");"

end Thrift.Script
