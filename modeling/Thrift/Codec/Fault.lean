-- What can go wrong when a codec is made for a definition.
import Thrift.Schema.Symbols

namespace Thrift

/-- Why a literal does not fit the type it is declared for. -/
inductive LiteralFault
  | tooDeep
  | mismatch (expected found : String)
  | outOfRange (value : Int64) (slot : String)
  | keyNotString
  | noField (struct field : String)
  | unknownReference (reference : String)
  | voidSlot
deriving DecidableEq

def LiteralFault.message : LiteralFault → String
  | tooDeep => "constant nests too deeply"
  | mismatch expected found => s!"expected {expected} literal, found {found}"
  | outOfRange value slot => s!"{value} does not fit in {slot}"
  | keyNotString => "struct constant keys must be strings"
  | noField struct field => s!"{struct} has no field {field}"
  | unknownReference reference => s!"{reference} is neither a constant nor an enum member"
  | voidSlot => "void fields cannot carry a default"

/-- What a procedure demands that its own text does not provide. -/
inductive ProcedureFault
  | typeTooDeep (type : String) (limit : Nat)
  | voidElement (container : String)
  | voidOutsideField
  | exceptionNotNamed (type : String)
  | exceptionNotStruct (name : String)
  | endlessService (service through : String)
  | noCodec (struct : String)
  | noService (service : String)
  | onewayResult (method : String)
  | noResult (struct : String)
  | notDecoding (op : String)
  | notEncoding (op : String)
  | notValue (binding : String)
  | notHeader (binding : String)
  | notSize (binding : String)
  | notContainer (binding : String)
  | notBound (binding : String)
  | noValue (expression : String)
  | structAsField
  | endlessLoop
deriving DecidableEq

def ProcedureFault.message : ProcedureFault → String
  | typeTooDeep type limit => s!"Type {type} nests deeper than {limit} levels"
  | voidElement container => s!"void cannot be an element of {container}"
  | voidOutsideField => "void is only readable as a struct field"
  | exceptionNotNamed type => s!"Declared exception type {type} is not an identifier"
  | exceptionNotStruct name => s!"Declared exception {name} does not name a struct-like type"
  | endlessService service through => s!"Service {service} extends itself through {through}"
  | noCodec struct => s!"No codec generated for struct {struct}"
  | noService service => s!"No codec generated for service {service}"
  | onewayResult method => s!"One-way method {method} has no result struct"
  | noResult struct => s!"Decode procedure for {struct} ended without constructing a value"
  | notDecoding op => s!"{op} cannot run inside a decode procedure"
  | notEncoding op => s!"{op} cannot run inside an encode procedure"
  | notValue binding => s!"{binding} is not bound to a value"
  | notHeader binding => s!"{binding} is not bound to a field header"
  | notSize binding => s!"{binding} is not container metadata"
  | notContainer binding => s!"{binding} is not an open container"
  | notBound binding => s!"{binding} is not bound"
  | noValue expression => expression ++ " has no value"
  | structAsField => "the struct itself is not a field value"
  | endlessLoop => "a loop goes on without reading"

inductive CodegenError
  | resolve (cause : ResolveError)
  | missingFieldId (struct field : String) (line : Option UInt32)
  | duplicateFieldId (struct : String) (id : Int16)
  | invalidDefault (field : String) (cause : LiteralFault)
  | procedure (cause : ProcedureFault)
deriving DecidableEq

def CodegenError.message : CodegenError → String
  | resolve cause => cause.message
  | missingFieldId struct field (some line) =>
    s!"FieldID for {struct}.{field} on line {line} is null"
  | missingFieldId struct field none => s!"FieldID for {struct}.{field} is null"
  | duplicateFieldId struct id => s!"Field id {id} is declared more than once in {struct}"
  | invalidDefault field cause => s!"Invalid default value for {field}: {cause.message}"
  | procedure cause => "Internal error: " ++ cause.message

end Thrift
