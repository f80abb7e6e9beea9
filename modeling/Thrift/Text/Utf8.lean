-- Bytes as text. Well-formed bytes are the text they encode; for all others the
-- fault says where the well-formed part ends and what follows it.

namespace Thrift.Text

/-- Where the well-formed part ends, and how many bytes of a begun character follow it.
Without a count the bytes end inside a character. -/
structure Utf8Fault where
  validUpTo : Nat
  badLength : Option Nat
deriving DecidableEq, Repr

def Utf8Fault.message (f : Utf8Fault) : String :=
  match f.badLength with
  | some n => s!"invalid utf-8 sequence of {n} bytes from index {f.validUpTo}"
  | none => s!"incomplete utf-8 byte sequence from index {f.validUpTo}"

def isContinuation (b : UInt8) : Bool := 0x80 ≤ b && b ≤ 0xBF

/-- The range of the second byte, which keeps out long forms, surrogates and too large code
points, and the number of further bytes; `none` where no character starts with the byte. -/
def afterLead (b : UInt8) : Option ((UInt8 × UInt8) × Nat) :=
  if 0xC2 ≤ b && b ≤ 0xDF then some ((0x80, 0xBF), 0)
  else if b = 0xE0 then some ((0xA0, 0xBF), 1)
  else if b = 0xED then some ((0x80, 0x9F), 1)
  else if 0xE1 ≤ b && b ≤ 0xEF then some ((0x80, 0xBF), 1)
  else if b = 0xF0 then some ((0x90, 0xBF), 2)
  else if 0xF1 ≤ b && b ≤ 0xF3 then some ((0x80, 0xBF), 2)
  else if b = 0xF4 then some ((0x80, 0x8F), 2)
  else none

/-- What a look at the start of the bytes finds. -/
inductive Utf8Step
  | character (length : Nat)
  | bad (length : Nat)
  | cutOff

/-- Checks the further bytes; `seen` bytes of the character are well-formed so far. -/
def continuationStep (seen : Nat) : Nat → List UInt8 → Utf8Step
  | 0, _ => .character seen
  | _ + 1, [] => .cutOff
  | more + 1, b :: rest =>
    if isContinuation b then continuationStep (seen + 1) more rest else .bad seen

def utf8Step : UInt8 → List UInt8 → Utf8Step
  | lead, rest =>
    if lead < 0x80 then .character 1
    else match afterLead lead with
      | none => .bad 1
      | some ((lo, hi), more) =>
        match rest with
        | [] => .cutOff
        | b :: rest => if lo ≤ b && b ≤ hi then continuationStep 2 more rest else .bad 1

/-- The first fault of the bytes from an index on; the first argument bounds the number of
characters. -/
def firstFault : Nat → Nat → List UInt8 → Utf8Fault
  | 0, i, _ => ⟨i, none⟩
  | _ + 1, i, [] => ⟨i, none⟩
  | budget + 1, i, lead :: rest =>
    match utf8Step lead rest with
    | .character n => firstFault budget (i + n) (rest.drop (n - 1))
    | .bad n => ⟨i, some n⟩
    | .cutOff => ⟨i, none⟩

/-- The bytes of a text. -/
def toBytes (s : String) : List UInt8 := s.toUTF8.data.toList

/-- The text that well-formed bytes encode. -/
def ofBytes (bytes : List UInt8) : Except Utf8Fault String :=
  match String.fromUTF8? ⟨bytes.toArray⟩ with
  | some s => .ok s
  | none => .error (firstFault bytes.length 0 bytes)

end Thrift.Text
