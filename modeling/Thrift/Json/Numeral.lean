-- Numbers in JSON text. Integers that fit sixty-four bits stay integers. All others become
-- doubles by one multiplication or division of the leading digits by a power of ten.
import Thrift.Json.Tree

namespace Thrift.Json

/-! ## Digits -/

def digitsOf (cs : List Char) : List Char × List Char :=
  (cs.takeWhile (·.isDigit), cs.dropWhile (·.isDigit))

def digitValue (c : Char) : Nat := c.toNat - '0'.toNat

/-- The largest number that sixty-four bits hold. -/
def maxSignificand : Nat := UInt64.size - 1

/-- Takes digits into the significand while it fits sixty-four bits, and leaves the rest. -/
def absorb (significand : Nat) : List Char → Nat × List Char
  | [] => (significand, [])
  | d :: ds =>
    let longer := significand * 10 + digitValue d
    if longer ≤ maxSignificand then absorb longer ds else (significand, d :: ds)

/-- A numeral taken apart. Without a fraction and an exponent it is written as an integer. -/
structure Numeral where
  negative : Bool
  whole : List Char
  fraction : Option (List Char)
  exponent : Option (Bool × List Char)

/-! ## Values -/

/-- The largest magnitude an exponent may have. -/
def maxExponent : Nat := 0x7FFFFFFF

/-- Scales down by `10 ^ 308` until the exponent is in reach of one division. -/
def scaleDown (x : Double) : Nat → Nat → Double
  | 0, _ => x
  | steps + 1, k =>
    if k ≤ 308 then x.dividedBy (Double.powerOfTen k)
    else if x.significand = 0 then x
    else scaleDown (x.dividedBy (Double.powerOfTen 308)) steps (k - 308)

/-- The double for `significand * 10 ^ exponent`, or nothing beyond the largest double. -/
def scaled (significand : Nat) (exponent : Int) : Option Double :=
  let x := Double.ofInt significand
  if exponent < 0 then some (scaleDown x 10 exponent.natAbs)
  else if exponent ≤ 308 then
    let y := x.times (Double.powerOfTen exponent.natAbs)
    if y.isInfinite then none else some y
  else if significand = 0 then some x
  else none

/-- The value of the exponent's digits; too many digits count as no exponent at all. -/
def exponentValue (digits : List Char) : Option Nat :=
  digits.foldl (fun acc d => acc.bind fun e =>
    let longer := e * 10 + digitValue d
    if longer ≤ maxExponent then some longer else none) (some 0)

/-- An exponent stays within thirty-two bits. -/
def clampExponent (e : Int) : Int := max Int32.minValue.toInt (min Int32.maxValue.toInt e)

/-- The number that a numeral with a fraction, an exponent or too many digits stands for. -/
def Numeral.toDouble (n : Numeral) : Except Fault Double := do
  let (whole, left) := absorb 0 n.whole
  let fraction := n.fraction.getD []
  let (significand, dropped) := absorb whole fraction
  let shift : Int := left.length - (fraction.length - dropped.length : Nat)
  let magnitude ← match n.exponent with
    | none => match scaled significand shift with
      | some x => pure x
      | none => throw Fault.malformed
    | some (down, digits) =>
      match exponentValue digits with
      | none => if significand ≠ 0 && !down then throw Fault.malformed else pure ⟨0⟩
      | some e =>
        match scaled significand (clampExponent (if down then shift - e else shift + e)) with
        | some x => pure x
        | none => throw Fault.malformed
  return if n.negative then magnitude.negate else magnitude

/-- The value of a numeral. A minus before a zero makes it the double `-0.0`. -/
def Numeral.value (n : Numeral) : Except Fault Json :=
  let magnitude := (absorb 0 n.whole).1
  if n.fraction.isNone && n.exponent.isNone && (absorb 0 n.whole).2.isEmpty
      && !(n.negative && (magnitude = 0 || 0x8000000000000000 < magnitude)) then
    .ok (.int (if n.negative then -magnitude else magnitude))
  else n.toDouble.map .double

/-! ## Reading -/

/-- Digits that must stand here. Where the text ends without them, it ends too early if the
numeral is kept, and is malformed if the numeral is passed over. -/
def someDigits (care : Care) (cs : List Char) : Except Fault (List Char × List Char) :=
  match digitsOf cs, care with
  | ([], []), .strict => .error .truncated
  | ([], _), _ => .error .malformed
  | found, _ => .ok found

def readFraction (care : Care) : List Char → Except Fault (Option (List Char) × List Char)
  | '.' :: rest => do
    let (digits, rest) ← someDigits care rest
    return (some digits, rest)
  | rest => .ok (none, rest)

def readExponent (care : Care) : List Char → Except Fault (Option (Bool × List Char) × List Char)
  | c :: rest =>
    if c = 'e' || c = 'E' then do
      let (down, rest) := match rest with
        | '-' :: rest => (true, rest)
        | '+' :: rest => (false, rest)
        | rest => (false, rest)
      let (digits, rest) ← someDigits care rest
      return (some (down, digits), rest)
    else .ok (none, c :: rest)
  | [] => .ok (none, [])

/-- A numeral starts with a digit, and with zero only when no digit follows it. -/
def readMagnitude (care : Care) (negative : Bool) (cs : List Char) :
    Except Fault (Numeral × List Char) := do
  let (whole, rest) ← someDigits care cs
  match whole with
  | '0' :: _ :: _ => throw .malformed
  | _ =>
    let (fraction, rest) ← readFraction care rest
    let (exponent, rest) ← readExponent care rest
    return (⟨negative, whole, fraction, exponent⟩, rest)

def readNumeral (care : Care) : List Char → Except Fault (Numeral × List Char)
  | '-' :: rest => readMagnitude care true rest
  | cs => readMagnitude care false cs

end Thrift.Json
