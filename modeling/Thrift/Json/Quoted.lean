-- Strings in JSON text.
import Thrift.Json.Tree

namespace Thrift.Json

/-! ## Reading -/

/-- The value of a hexadecimal digit. -/
def hexValue (c : Char) : Option Nat :=
  if c.isDigit then some (c.toNat - '0'.toNat)
  else if 'a' ≤ c && c ≤ 'f' then some (c.toNat - 'a'.toNat + 10)
  else if 'A' ≤ c && c ≤ 'F' then some (c.toNat - 'A'.toNat + 10)
  else none

/-- Four hexadecimal digits. The text ends too early when fewer than four bytes are left. -/
def readUnit : List Char → Except Fault (Nat × List Char)
  | a :: b :: c :: d :: rest =>
    match hexValue a, hexValue b, hexValue c, hexValue d with
    | some a, some b, some c, some d => .ok (((a * 16 + b) * 16 + c) * 16 + d, rest)
    | _, _, _, _ => .error .malformed
  | cs => .error (if cs.foldl (fun n c => n + c.utf8Size) 0 < 4 then .truncated else .malformed)

def isHighUnit (u : Nat) : Bool := 0xD800 ≤ u && u ≤ 0xDBFF
def isLowUnit (u : Nat) : Bool := 0xDC00 ≤ u && u ≤ 0xDFFF

/-- The character of a numeric escape, after its letter; a surrogate pair is two escapes. -/
def readUnicode (care : Care) (cs : List Char) : Except Fault (Char × List Char) := do
  let (high, rest) ← readUnit cs
  if care = .lax then return (Char.ofNat high, rest)
  if isLowUnit high then throw .malformed
  if !isHighUnit high then return (Char.ofNat high, rest)
  match rest with
  | [] => throw .truncated
  | '\\' :: [] => throw .truncated
  | '\\' :: 'u' :: rest =>
    let (low, rest) ← readUnit rest
    if !isLowUnit low then throw .malformed
    return (Char.ofNat (0x10000 + (high - 0xD800) * 0x400 + (low - 0xDC00)), rest)
  | _ => throw .malformed

/-- The character of an escape, after its backslash. -/
def readEscape (care : Care) : List Char → Except Fault (Char × List Char)
  | [] => .error .truncated
  | c :: rest =>
    match c with
    | '"' => .ok ('"', rest)
    | '\\' => .ok ('\\', rest)
    | '/' => .ok ('/', rest)
    | 'b' => .ok ('\x08', rest)
    | 'f' => .ok ('\x0c', rest)
    | 'n' => .ok ('\n', rest)
    | 'r' => .ok ('\r', rest)
    | 't' => .ok ('\t', rest)
    | 'u' => readUnicode care rest
    | _ => .error .malformed

/-- The characters up to the closing quote, after those `read` so far, last first; the budget
bounds their number. -/
def readCharacters (care : Care) : Nat → List Char → List Char →
    Except Fault (List Char × List Char)
  | 0, _, _ => .error .truncated
  | _ + 1, _, [] => .error .truncated
  | budget + 1, read, c :: rest =>
    if c = '"' then .ok (read.reverse, rest)
    else if c = '\\' then
      match readEscape care rest with
      | .ok (c, rest) => readCharacters care budget (c :: read) rest
      | .error fault => .error fault
    else if c.toNat < 0x20 then .error .malformed
    else readCharacters care budget (c :: read) rest

/-- A string after its opening quote. -/
def readString (care : Care) (cs : List Char) : Except Fault (String × List Char) := do
  let (cs, rest) ← readCharacters care (cs.length + 1) [] cs
  return (String.ofList cs, rest)

/-! ## Writing -/

/-- The escape of a control character without a letter of its own. -/
def controlEscape (c : Char) : String :=
  let digits := Nat.toDigits 16 c.toNat
  "\\u" ++ String.ofList (List.replicate (4 - digits.length) '0' ++ digits)

def writtenChar (c : Char) : String :=
  match c with
  | '"' => "\\\""
  | '\\' => "\\\\"
  | '\x08' => "\\b"
  | '\x0c' => "\\f"
  | '\n' => "\\n"
  | '\r' => "\\r"
  | '\t' => "\\t"
  | c => if c.toNat < 0x20 then controlEscape c else c.toString

def writtenString (s : String) : String := "\"" ++ String.join (s.toList.map writtenChar) ++ "\""

end Thrift.Json
