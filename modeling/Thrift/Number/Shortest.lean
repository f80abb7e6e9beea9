-- The shortest decimal digits of a double: the fewest digits that read back
-- as the same double, and of those the nearest.
import Thrift.Number.Double

namespace Thrift.Double

/-- What is taken when the double lies midway between two shortest decimals. -/
inductive Midway
  | up
  | even
deriving DecidableEq

/-- A decimal `digits * 10 ^ exponent`. -/
structure Decimal where
  digits : Nat
  exponent : Int
deriving DecidableEq, Repr

/-- The bounds of the fractions that round to a finite positive double, over the denominator
`2 ^ 1076`, and whether the bounds themselves round to it. -/
structure Basin where
  low : Nat
  value : Nat
  high : Nat
  closed : Bool

/-- Below a power of two the neighbouring doubles lie half as far away as above it. -/
def basin (x : Double) : Basin :=
  let s := x.significand
  let unit := twoTo x.binaryShift
  let below := if s = twoTo 52 && x.binaryShift ≠ 0 then 1 else 2
  ⟨(4 * s - below) * unit, 4 * s * unit, (4 * s + 2) * unit, s % 2 == 0⟩

/-- A fraction lies in the basin. -/
def Basin.holds (b : Basin) (num den : Nat) : Bool :=
  let v := num * twoTo 1076
  let low := b.low * den
  let high := b.high * den
  if b.closed then low ≤ v && v ≤ high else low < v && v < high

/-- The power of ten as a fraction. -/
def tenTo (k : Int) : Nat × Nat :=
  if k < 0 then (1, Nat.pow 10 k.natAbs) else (Nat.pow 10 k.natAbs, 1)

/-- The better of the two neighbours of the value on the grid of multiples of `10 ^ k`,
if one of them lies in the basin. -/
def Basin.onGrid (b : Basin) (midway : Midway) (k : Int) : Option Nat :=
  let (num, den) := tenTo k
  let step := num * twoTo 1076
  let d := b.value * den / step
  let rest := b.value * den % step
  let downIn := b.holds (d * num) den
  let upIn := b.holds ((d + 1) * num) den
  if downIn && upIn then
    if 2 * rest < step then some d
    else if 2 * rest > step then some (d + 1)
    else match midway with
      | .up => some (d + 1)
      | .even => some (if d % 2 == 0 then d else d + 1)
  else if downIn then some d
  else if upIn then some (d + 1)
  else none

/-- The largest `k` with `10 ^ k ≤ num / den`, found by counting down. -/
def decade (num den : Nat) : Nat → Int → Int
  | 0, k => k
  | steps + 1, k =>
    let (n, d) := tenTo k
    if n * den ≤ num * d then k else decade num den steps (k - 1)

/-- Tries the grids from `k` downwards, which is from few digits to many. -/
def Basin.firstGrid (b : Basin) (midway : Midway) : Nat → Int → Decimal
  | 0, k => ⟨b.value, k⟩
  | steps + 1, k =>
    match b.onGrid midway k with
    | some d => ⟨d, k⟩
    | none => b.firstGrid midway steps (k - 1)

/-- Digits without the zeros at their end. -/
def Decimal.trimmed (d : Decimal) : Nat → Decimal
  | 0 => d
  | steps + 1 =>
    if d.digits ≠ 0 && d.digits % 10 == 0 then
      Decimal.trimmed ⟨d.digits / 10, d.exponent + 1⟩ steps
    else d

/-- The shortest decimal of the magnitude of a finite double that is not zero. -/
def shortest (midway : Midway) (x : Double) : Decimal :=
  let b := x.basin
  let top := decade b.value (twoTo 1076) 640 309
  (b.firstGrid midway 20 top).trimmed 20

/-! ## Texts -/

/-- The decimal digits of a natural number. -/
def decimalText (n : Nat) : String := toString n

def zeros (n : Nat) : String := String.ofList (List.replicate n '0')

/-- Digits with a point `places` digits from their end, padded with zeros where it falls
outside of them. -/
def pointed (digits : String) (places : Nat) : String :=
  if digits.length ≤ places then "0." ++ zeros (places - digits.length) ++ digits
  else
    let cut := digits.length - places
    (digits.take cut).toString ++ "." ++ (digits.drop cut).toString

def signText (x : Double) : String := if x.negative then "-" else ""

/-- Positional notation: never an exponent, and no point on whole numbers. -/
def positional (x : Double) : String :=
  if x.isNaN then "NaN"
  else if x.isInfinite then x.signText ++ "inf"
  else if x.significand = 0 then x.signText ++ "0"
  else
    let d := x.shortest .up
    let digits := decimalText d.digits
    if d.exponent < 0 then x.signText ++ pointed digits d.exponent.natAbs
    else x.signText ++ digits ++ zeros d.exponent.natAbs

/-- The notation of literals in JSON text: a point always, except beside an exponent, and an
exponent from `1e16` up and below `1e-5`. -/
def literal (x : Double) : String :=
  if x.significand = 0 then x.signText ++ "0.0"
  else
    let d := x.shortest .even
    let digits := decimalText d.digits
    let top := d.exponent + digits.length
    if 0 ≤ d.exponent && top ≤ 16 then
      x.signText ++ digits ++ zeros d.exponent.natAbs ++ ".0"
    else if d.exponent < 0 && -5 < top && top ≤ 16 then
      x.signText ++ pointed digits d.exponent.natAbs
    else if digits.length = 1 then x.signText ++ digits ++ "e" ++ toString (top - 1)
    else
      x.signText ++ pointed digits (digits.length - 1) ++ "e" ++ toString (top - 1)

end Thrift.Double
