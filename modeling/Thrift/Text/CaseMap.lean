-- Upper and lower case over all of Unicode. One character may become several,
-- and a capital sigma at the end of a word becomes the final sigma.
import Thrift.Text.CaseTable

namespace Thrift.Text

/-- A mapping sends a character to the characters its tables list, else to itself. -/
def mapChar (runs : List CaseRun) (sequences : List (Nat × List Nat)) (c : Char) : List Char :=
  match runs.find? (·.covers c.toNat) with
  | some r => [Char.ofNat (c.toNat + r.shift).toNat]
  | none =>
    match sequences.lookup c.toNat with
    | some cs => cs.map Char.ofNat
    | none => [c]

/-- Below the first letter with an accent the mapping is the one of ASCII. -/
def upperChar (c : Char) : List Char :=
  if c.toNat < 128 then [c.toUpper] else mapChar upperRuns upperSequences c

def lowerChar (c : Char) : List Char :=
  if c.toNat < 128 then [c.toLower] else mapChar lowerRuns lowerSequences c

def inRanges (ranges : List (Nat × Nat)) (c : Char) : Bool :=
  ranges.any fun (lo, hi) => lo ≤ c.toNat && c.toNat ≤ hi

def isCased : Char → Bool := inRanges casedRanges
def isCaseIgnorable : Char → Bool := inRanges caseIgnorableRanges

/-- The nearest character that is not passed over is a letter with a case. -/
def meetsCased (cs : List Char) : Bool :=
  match cs.dropWhile isCaseIgnorable with
  | c :: _ => isCased c
  | [] => false

/-- A capital sigma is final after a letter and before none. -/
def lowerSigma (before after : List Char) : Char :=
  if meetsCased before && !meetsCased after then 'ς' else 'σ'

/-- Lower case of a text; `before` holds what has been passed, last first. -/
def lowerAfter (before : List Char) : List Char → List Char
  | [] => []
  | c :: rest =>
    let mapped := if c = 'Σ' then [lowerSigma before rest] else lowerChar c
    mapped ++ lowerAfter (c :: before) rest

def lower (s : String) : String := String.ofList (lowerAfter [] s.toList)

end Thrift.Text
