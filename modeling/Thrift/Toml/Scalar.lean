-- Numbers, dates and truth values of TOML.
import Thrift.Json.Quoted
import Thrift.Number.Double
import Thrift.Toml.Tree

namespace Thrift.Toml

/-! ## Numbers -/

/-- Digits without the underscores that stand singly between them. -/
def groupedDigits (isDigit : Char → Bool) : List Char → Option (List Char)
  | [] => none
  | [c] => if isDigit c then some [c] else none
  | c :: '_' :: cs => do if isDigit c then return c :: (← groupedDigits isDigit cs) else none
  | c :: cs => do if isDigit c then return c :: (← groupedDigits isDigit cs) else none

def isHexDigit (c : Char) : Bool := (Json.hexValue c).isSome

def isDigitBelow (limit : Char) (c : Char) : Bool := '0' ≤ c && c < limit

/-- The number that digits stand for. -/
def numberOf (base : Nat) (digits : List Char) : Nat :=
  digits.foldl (fun n d => n * base + (Json.hexValue d).getD 0) 0

/-- The number that digits stand for, if it fits an integer. -/
def magnitude (base : Nat) (digits : List Char) (limit : Nat) : Option Nat :=
  let n := numberOf base digits
  if n ≤ limit then some n else none

/-- A decimal number does not start with a zero that another digit follows. -/
def wholeDigits (cs : List Char) : Option (List Char) :=
  match groupedDigits Char.isDigit cs with
  | some ('0' :: _ :: _) => none
  | digits => digits

/-- The sign of a number and what follows it. -/
def signed : List Char → Bool × List Char
  | '-' :: cs => (true, cs)
  | '+' :: cs => (false, cs)
  | cs => (false, cs)

/-- The largest integer. -/
def maxInteger : Nat := 0x7FFFFFFFFFFFFFFF

def integerIn (base : Nat) (isDigit : Char → Bool) (cs : List Char) : Option Toml := do
  return .integer (Int64.ofNat (← magnitude base (← groupedDigits isDigit cs) maxInteger))

/-- An integer, of which only a decimal one has a sign. -/
def integerValue : List Char → Option Toml
  | '0' :: 'x' :: cs => integerIn 16 isHexDigit cs
  | '0' :: 'o' :: cs => integerIn 8 (isDigitBelow '8') cs
  | '0' :: 'b' :: cs => integerIn 2 (isDigitBelow '2') cs
  | cs => do
    let (negative, cs) := signed cs
    let digits ← wholeDigits cs
    if negative then return .integer (Int64.ofInt (-(← magnitude 10 digits (maxInteger + 1))))
    else return .integer (Int64.ofNat (← magnitude 10 digits maxInteger))

def isExponentMark (c : Char) : Bool := c = 'e' || c = 'E'

/-- The number `digits * 10 ^ exponent`. -/
structure Decimal where
  digits : List Char
  exponent : Int

/-- The exponent behind its mark. -/
def exponentValue (cs : List Char) : Option Int := do
  let (negative, cs) := signed cs
  let n := numberOf 10 (← groupedDigits Char.isDigit cs)
  return if negative then -n else n

/-- The digits behind a point, and an exponent if there is a mark. -/
def fractionValue (cs : List Char) : Option Decimal := do
  let digits ← groupedDigits Char.isDigit (cs.takeWhile (!isExponentMark ·))
  match cs.dropWhile (!isExponentMark ·) with
  | [] => return ⟨digits, 0⟩
  | _ :: exponent => return ⟨digits, ← exponentValue exponent⟩

/-- A number with a fraction, an exponent or both, without its sign. -/
def decimalValue (cs : List Char) : Option Decimal := do
  let ends (c : Char) : Bool := c = '.' || isExponentMark c
  let whole ← wholeDigits (cs.takeWhile (!ends ·))
  match cs.dropWhile (!ends ·) with
  | [] => none
  | '.' :: rest =>
    let fraction ← fractionValue rest
    return ⟨whole ++ fraction.digits, fraction.exponent - fraction.digits.length⟩
  | _ :: exponent => return ⟨whole, ← exponentValue exponent⟩

/-- Whether the nearest double is infinity. The largest double has 309 digits, so that only
numbers of that length need a look at their digits. -/
def Decimal.isTooLarge (d : Decimal) : Bool :=
  let digits := d.digits.dropWhile (· = '0')
  let length := digits.length + d.exponent
  if digits.isEmpty || length < 309 then false
  else if 309 < length then true
  else
    let scale := Nat.pow 10 d.exponent.natAbs
    let n := numberOf 10 digits
    (if d.exponent < 0 then Double.ofFraction false n scale
      else Double.ofFraction false (n * scale) 1).isInfinite

/-- A float is a decimal number or one of two words, with or without a sign. Above zero the
infinite float is written with its word only. -/
def floatValue (cs : List Char) : Option Toml :=
  let (negative, cs) := signed cs
  if cs = "inf".toList || cs = "nan".toList then some .float
  else do
    let d ← decimalValue cs
    if d.isTooLarge && !negative then none else return .float

/-! ## Dates -/

/-- The number of a fixed count of digits at the start, and the rest. -/
def digitsAt (count : Nat) (cs : List Char) : Option (Nat × List Char) :=
  let digits := cs.take count
  if digits.length = count && digits.all (·.isDigit) then
    some (digits.foldl (fun n d => n * 10 + (d.toNat - '0'.toNat)) 0, cs.drop count)
  else none

def expect (c : Char) : List Char → Option (List Char)
  | d :: cs => if c = d then some cs else none
  | [] => none

def isLeapYear (year : Nat) : Bool := year % 4 = 0 && (year % 100 ≠ 0 || year % 400 = 0)

def daysOf (year month : Nat) : Nat :=
  if month = 2 then if isLeapYear year then 29 else 28
  else if month = 4 || month = 6 || month = 9 || month = 11 then 30
  else 31

/-- The rest after a day. -/
def afterDay (cs : List Char) : Option (List Char) := do
  let (year, cs) ← digitsAt 4 cs
  let (month, cs) ← digitsAt 2 (← expect '-' cs)
  let (day, cs) ← digitsAt 2 (← expect '-' cs)
  if 1 ≤ month && month ≤ 12 && 1 ≤ day && day ≤ daysOf year month then some cs else none

/-- The rest after hours and minutes. -/
def afterMinutes (cs : List Char) : Option (List Char) := do
  let (hour, cs) ← digitsAt 2 cs
  let (minute, cs) ← digitsAt 2 (← expect ':' cs)
  if hour ≤ 23 && minute ≤ 59 then some cs else none

/-- The rest after a time, whose seconds may have a fraction. -/
def afterTime (cs : List Char) : Option (List Char) := do
  let (second, cs) ← digitsAt 2 (← expect ':' (← afterMinutes cs))
  if second ≤ 60 then
    match cs with
    | '.' :: rest =>
      if (rest.takeWhile (·.isDigit)).isEmpty then none else some (rest.dropWhile (·.isDigit))
    | rest => some rest
  else none

/-- Nothing, or the distance of the place from the prime meridian. -/
def isOffset (cs : List Char) : Bool :=
  match cs with
  | [] => true
  | c :: cs =>
    if c = 'Z' || c = 'z' then cs.isEmpty
    else (c = '+' || c = '-') && afterMinutes cs == some []

/-- A day, a time, or both; only both have a place. -/
def isDate (cs : List Char) : Bool :=
  match afterDay cs with
  | some [] => true
  | some (c :: time) =>
    (c = 'T' || c = 't' || c = ' ') &&
      match afterTime time with
      | some rest => isOffset rest
      | none => false
  | none => afterTime cs == some []

/-! ## Reading -/

/-- A character of a scalar that is no string. -/
def isPlain (c : Char) : Bool :=
  c.isAlphanum || c = '_' || c = '-' || c = '+' || c = '.' || c = ':'

/-- The characters of a scalar and the rest. Between a day and a time may be one blank. -/
def splitPlain (cs : List Char) : List Char × List Char :=
  let plain := cs.takeWhile isPlain
  let rest := cs.dropWhile isPlain
  match afterDay plain, rest with
  | some [], ' ' :: time =>
    if ((time.head?).map (·.isDigit)).getD false then
      (plain ++ ' ' :: time.takeWhile isPlain, time.dropWhile isPlain)
    else (plain, rest)
  | _, _ => (plain, rest)

/-- A truth value, a number or a date. -/
def plainValue (cs : List Char) : Option Toml :=
  if cs = "true".toList then some (.boolean true)
  else if cs = "false".toList then some (.boolean false)
  else if isDate cs then some .date
  else floatValue cs <|> integerValue cs

/-- A scalar that is no string. -/
def readPlain (cs : List Char) : Option (Toml × List Char) := do
  let (plain, rest) := splitPlain cs
  return (← plainValue plain, rest)

end Thrift.Toml
