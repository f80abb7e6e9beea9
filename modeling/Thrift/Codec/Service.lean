-- Services: the structs that carry arguments and results, and the table of methods.
import Thrift.Codec.Struct

namespace Thrift

/-- A declared exception and the field of the result struct it travels in. -/
structure ExceptionSlot where
  field : String
  id : Int16
  exception : String
deriving DecidableEq

structure Method where
  name : String
  /-- The service that declares the method; an inherited one keeps it. -/
  declaredIn : String
  argsStruct : String
  /-- One-way methods have no result. -/
  resultStruct : Option String
  returnType : FieldType
  oneway : Bool
  exceptions : List ExceptionSlot
deriving DecidableEq

structure ServiceCodec where
  name : String
  parent : Option String
  /-- Inherited methods come first. -/
  methods : List Method
deriving DecidableEq

def Method.returnsVoid (m : Method) : Bool := m.returnType == .void

/-- The slot of a declared exception. -/
def Method.slot? (m : Method) (exception : String) : Option ExceptionSlot :=
  m.exceptions.find? (·.exception == exception)

def ServiceCodec.method? (s : ServiceCodec) (name : String) : Option Method :=
  s.methods.find? (·.name == name)

namespace Service

/-! ## Structs of methods -/

/-- The field of the result struct that holds a returned value. -/
def successField : String := "success"

def argsName (service method : String) : String := service ++ pascalCase method ++ "Args"

def resultName (service method : String) : String := service ++ pascalCase method ++ "Result"

def argsStruct (service : String) (f : Function) : StructLike :=
  ⟨argsName service f.name, f.fields⟩

/-- The result is a struct of the returned value and the declared exceptions. None of them is
required and none has a default. -/
def resultStruct (service : String) (f : Function) : StructLike :=
  ⟨resultName service f.name,
    ⟨successField, some 0, f.returnType, .optional, none, none⟩ ::
      f.throws.map fun f => { f with requiredness := .optional, default := none }⟩

/-- The structs that carry a call of a function and its answer. -/
def structsOf (service : String) (f : Function) : List StructLike :=
  if f.oneway then [argsStruct service f] else [argsStruct service f, resultStruct service f]

/-- The codecs for the functions that a service declares itself. -/
def structCodecs (t : SymbolTable) (s : Service) : Except CodegenError (List StructCodec) :=
  (s.functions.flatMap (structsOf s.name)).mapM (StructCodec.ofDefinition t .struct)

/-! ## Methods -/

/-- The struct that a declared exception's type names, through typedefs. The first argument
bounds the steps. -/
def exceptionNameWithin (t : SymbolTable) : Nat → FieldType → Except CodegenError String
  | 0, type => .error type.tooDeep
  | levels + 1, type =>
    match type with
    | .identifier name =>
      match t.resolveType name with
      | .error cause => .error (.resolve cause)
      | .ok (.structLike _ d) => .ok d.name
      | .ok (.typedef _ underlying) => exceptionNameWithin t levels underlying
      | .ok resolved => .error (.procedure (.exceptionNotStruct resolved.name))
    | _ => .error (.procedure (.exceptionNotNamed type.displayName))

def exceptionSlot (t : SymbolTable) (struct : String) (f : Field) :
    Except CodegenError ExceptionSlot := do
  match f.id with
  | none => throw (.missingFieldId struct f.name f.line)
  | some id => return ⟨f.name, id, ← exceptionNameWithin t (maxTypeDepth + 1) f.type⟩

def methodOf (t : SymbolTable) (s : Service) (f : Function) : Except CodegenError Method := do
  let exceptions ← f.throws.mapM (exceptionSlot t (resultName s.name f.name))
  return ⟨f.name, s.name, argsName s.name f.name,
    if f.oneway then none else some (resultName s.name f.name), f.returnType, f.oneway, exceptions⟩

/-! ## Inheritance -/

/-- The service and those it extends, the root first. `chain` holds those that were met, and
the first argument bounds their number. -/
def lineage (t : SymbolTable) (origin : String) : Nat → Service → List Service →
    Except CodegenError (List Service)
  | 0, s, _ => .error (.procedure (.endlessService origin s.name))
  | budget + 1, s, chain =>
    match s.parent with
    | none => .ok (s :: chain)
    | some parent =>
      match t.service parent with
      | .error cause => .error (.resolve cause)
      | .ok next =>
        if next.name ∈ (s :: chain).map (·.name) then
          .error (.procedure (.endlessService origin next.name))
        else lineage t origin budget next (s :: chain)

/-- A method takes the place of an earlier one of the same name. -/
def addMethod (m : Method) : List Method → List Method
  | [] => [m]
  | n :: ns => if n.name = m.name then m :: ns else n :: addMethod m ns

/-- Adds the methods that a service declares. -/
def addMethods (t : SymbolTable) (methods : List Method) (s : Service) :
    Except CodegenError (List Method) :=
  s.functions.foldlM (fun methods f => do return addMethod (← methodOf t s f) methods) methods

/-- The table of all methods of a service. -/
def codec (t : SymbolTable) (s : Service) : Except CodegenError ServiceCodec := do
  let line ← lineage t s.name (t.size + 1) s []
  return ⟨s.name, s.parent, ← line.foldlM (addMethods t) []⟩

end Service

end Thrift
