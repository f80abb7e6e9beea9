-- Script text as lines that know their level of indentation.

namespace Thrift.Script

/-- A step of writing out a script. -/
inductive Piece
  | line (text : String)
  | blank
  | indent
  | dedent
deriving DecidableEq, Repr

/-- The level after a step. It does not go below zero. -/
def Piece.level (level : Nat) : Piece → Nat
  | indent => level + 1
  | dedent => level - 1
  | _ => level

/-- The level after all steps. -/
def levelAfter (pieces : List Piece) (level : Nat) : Nat := pieces.foldl Piece.level level

/-- The text of one step, with `width` blanks for each level. -/
def Piece.text (width level : Nat) : Piece → String
  | line text => String.ofList (List.replicate (width * level) ' ') ++ text ++ "\n"
  | blank => "\n"
  | _ => ""

/-- The texts of the steps in order. -/
def texts (width : Nat) : Nat → List Piece → List String
  | _, [] => []
  | level, p :: ps => p.text width level :: texts width (p.level level) ps

/-- The text of a whole script. -/
def layout (width : Nat) (pieces : List Piece) : String := String.join (texts width 0 pieces)

/-! ## Blocks -/

/-- Blocks in a row, each one level deeper than its head. The head of the next one closes the
one before it, and the foot closes the last. -/
def chained (blocks : List (String × List Piece)) (foot : String) : List Piece :=
  (blocks.flatMap fun (head, body) => [.line head, .indent] ++ body ++ [.dedent]) ++ [.line foot]

/-- One block between two lines. -/
def enclosed (head : String) (body : List Piece) (foot : String) : List Piece :=
  chained [(head, body)] foot

/-- One block between braces. -/
def braced (head : String) (body : List Piece) : List Piece :=
  enclosed (head ++ " \x7b") body "\x7d"

end Thrift.Script
