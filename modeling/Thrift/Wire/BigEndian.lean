-- Numbers as bytes, the most significant byte first.

namespace Thrift

abbrev Bytes := List UInt8

namespace BigEndian

/-- The last `width` bytes of a number. -/
def bytes : Nat → Nat → Bytes
  | 0, _ => []
  | width + 1, n => UInt8.ofNat (n / Nat.pow 256 width) :: bytes width n

/-- The number that bytes make up. -/
def value (bs : Bytes) : Nat := bs.foldl (fun n b => n * 256 + b.toNat) 0

end BigEndian

end Thrift
