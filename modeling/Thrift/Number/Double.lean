-- Binary doubles as their sixty-four bits, with the exact arithmetic that
-- reading and printing literals needs. Every operation goes through exact
-- natural numbers and rounds once, to nearest, a half to the even neighbour.

namespace Thrift

/-- A double is its sixty-four bits: NaN payloads and the sign of zero count. -/
structure Double where
  bits : UInt64
deriving DecidableEq, Inhabited, Repr

namespace Double

/-- A power of two. -/
abbrev twoTo (k : Nat) : Nat := Nat.pow 2 k

/-! ## The parts of a double -/

/-- A double whose sign bit is set lies below zero, or is the negative zero. -/
def negative (x : Double) : Bool := x.bits.toNat / twoTo 63 == 1

/-- The eleven bits between the sign and the fraction. -/
def exponentBits (x : Double) : Nat := x.bits.toNat / twoTo 52 % twoTo 11

def fractionBits (x : Double) : Nat := x.bits.toNat % twoTo 52

def isNaN (x : Double) : Bool := x.exponentBits == 2047 && x.fractionBits != 0

def isInfinite (x : Double) : Bool := x.exponentBits == 2047 && x.fractionBits == 0

def isFinite (x : Double) : Bool := !x.isNaN && !x.isInfinite

/-- The magnitude of a finite double is `significand * 2 ^ (binaryShift - 1074)`. -/
def significand (x : Double) : Nat :=
  if x.exponentBits = 0 then x.fractionBits else twoTo 52 + x.fractionBits

def binaryShift (x : Double) : Nat := x.exponentBits - 1

/-- The magnitude of a finite double as a fraction. -/
def magnitude (x : Double) : Nat × Nat := (x.significand * twoTo x.binaryShift, twoTo 1074)

/-! ## Rounding -/

/-- The quotient rounded to nearest, a half to the even neighbour. -/
def roundHalfEven (num den : Nat) : Nat :=
  let q := num / den
  let twice := 2 * (num % den)
  if twice < den || (twice == den && q % 2 == 0) then q else q + 1

/-- The largest `f` with `2 ^ f * den ≤ num * 2 ^ 1074`, for a positive `num`. -/
def binade (num den : Nat) : Nat :=
  let scaled := num * twoTo 1074
  let guess := scaled.log2 - den.log2
  if twoTo guess * den ≤ scaled then guess else guess - 1

def infinityBits : Nat := 2047 * twoTo 52

/-- The bits of the double nearest to `num / den`, without a sign. Beyond the largest
finite double this is infinity. -/
def nearestBits (num den : Nat) : Nat :=
  if num = 0 then 0 else
    let shift := binade num den - 52
    let significand := roundHalfEven (num * twoTo 1074) (den * twoTo shift)
    min infinityBits (shift * twoTo 52 + significand)

/-- The double nearest to a signed fraction. -/
def ofFraction (negative : Bool) (num den : Nat) : Double :=
  ⟨UInt64.ofNat (nearestBits num den + if negative then twoTo 63 else 0)⟩

/-- The double nearest to an integer. -/
def ofInt (n : Int) : Double := ofFraction (n < 0) n.natAbs 1

/-- The double with the other sign. -/
def negate (x : Double) : Double := ⟨x.bits ^^^ 0x8000000000000000⟩

/-- The product of two finite doubles that are not negative. -/
def times (x y : Double) : Double :=
  let (a, b) := x.magnitude
  let (c, d) := y.magnitude
  ofFraction false (a * c) (b * d)

/-- The quotient of two finite doubles that are not negative; the divisor is not zero. -/
def dividedBy (x y : Double) : Double :=
  let (a, b) := x.magnitude
  let (c, d) := y.magnitude
  ofFraction false (a * d) (b * c)

/-- The double nearest to a power of ten. -/
def powerOfTen (k : Nat) : Double := ofFraction false (Nat.pow 10 k) 1

/-! ## Comparison -/

/-- Equality of numbers: NaN differs from itself and the two zeros are equal. -/
def sameNumber (x y : Double) : Bool :=
  !x.isNaN && !y.isNaN && (x == y || (x.significand == 0 && y.significand == 0
    && !x.isInfinite && !y.isInfinite))

end Double

end Thrift
