-- All codecs of a document.
import Thrift.Codec.Service

namespace Thrift

structure Compiled where
  structs : List StructCodec
  services : List ServiceCodec

namespace Compiled

def struct? (c : Compiled) (name : String) : Option StructCodec :=
  c.structs.find? (·.name == name)

def service? (c : Compiled) (name : String) : Option ServiceCodec :=
  c.services.find? (·.name == name)

/-- Puts other procedures in the place of those of a struct. -/
def patch (c : Compiled) (name : String) (change : StructCodec → StructCodec) : Compiled :=
  { c with structs := c.structs.map fun s => if s.name = name then change s else s }

/-- Adds codecs in order; their names must differ. -/
def addStructs (structs : List StructCodec) :
    List StructCodec → Except CodegenError (List StructCodec)
  | [] => .ok structs
  | s :: ss =>
    if structs.any (·.name == s.name) then .error (.resolve (.duplicateDefinition s.name))
    else addStructs (structs ++ [s]) ss

/-- Adds the codec of a definition. -/
def addDefinition (t : SymbolTable) (structs : List StructCodec) (d : StructKind × StructLike) :
    Except CodegenError (List StructCodec) := do
  addStructs structs [← StructCodec.ofDefinition t d.1 d.2]

/-- Adds the codecs for the functions of a service. -/
def addService (t : SymbolTable) (structs : List StructCodec) (s : Service) :
    Except CodegenError (List StructCodec) := do
  addStructs structs (← s.structCodecs t)

/-- Definitions come first, then the structs of methods, then the services. -/
def ofSymbols (t : SymbolTable) (d : Document) : Except CodegenError Compiled := do
  let structs ← d.structLikes.foldlM (addDefinition t) []
  let structs ← d.services.foldlM (addService t) structs
  return ⟨structs, ← d.services.mapM (Service.codec t)⟩

end Compiled

/-- All codecs of a document. -/
def Document.compile (d : Document) : Except CodegenError Compiled :=
  match SymbolTable.ofDocument d with
  | .error cause => .error (.resolve cause)
  | .ok t => Compiled.ofSymbols t d

end Thrift
