-- A whole document as one file.
import Thrift.Codec.Lowering
import Thrift.Script.Service

namespace Thrift.Script

/-- What a file depends on besides its document. -/
structure Settings where
  /-- The module that is imported as `thrift`. -/
  runtime : String := "@creditkarma/thrift-server-core"
  /-- Blanks for each level. -/
  indent : Nat := 4
deriving DecidableEq, Repr

def enumLines (d : Enumeration) : List Piece :=
  braced ("export enum " ++ d.name)
    (d.memberValues.map fun (name, value) => .line (name ++ " = " ++ toString value.toInt ++ ","))

def typedefLine (d : Typedef) : Piece :=
  .line ("export type " ++ d.name ++ " = " ++ typeOf d.type ++ ";")

/-- A constant with its value as an expression. -/
def constantLine (t : SymbolTable) (d : Constant) : Except CodegenError Piece := do
  let value ← d.value.lower t d.name d.type
  return .line ("export const " ++ d.name ++ ": " ++ typeOf d.type ++ " = " ++ literal value ++ ";")

/-- The lines of a statement that has no codec. -/
def statementLines (t : SymbolTable) : Statement → Except CodegenError (List Piece)
  | .enumeration d => .ok (enumLines d ++ [.blank])
  | .typedef d => .ok [typedefLine d, .blank]
  | .constant d => do return [← constantLine t d, .blank]
  | _ => .ok []

/-- The lines below the import: statements in their order, then classes, then services. -/
def bodyLines (t : SymbolTable) (d : Document) (c : Compiled) :
    Except CodegenError (List Piece) := do
  let statements ← d.body.mapM (statementLines t)
  return statements.flatten ++ (c.structs.flatMap fun s => classLines t s ++ [.blank]) ++
    c.services.flatMap fun s => serviceLines c s ++ [.blank]

/-- The lines above everything else. -/
def header (settings : Settings) : String :=
  "/* Autogenerated by thriftc. DO NOT EDIT. */\nimport * as thrift from \"" ++
    settings.runtime ++ "\";"

/-- The file for a document and its codecs. -/
def file (settings : Settings) (d : Document) (c : Compiled) : Except CodegenError String :=
  match SymbolTable.ofDocument d with
  | .error cause => .error (.resolve cause)
  | .ok t => do
    let body ← bodyLines t d c
    return header settings ++ "\n\n" ++ layout settings.indent body

end Thrift.Script
