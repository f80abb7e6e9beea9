-- Limits and choices of one end of the wire.

namespace Thrift

structure WireConfig where
  /-- Refuse message headers without a version word. -/
  strictRead : Bool := false
  /-- Write message headers with a version word. -/
  strictWrite : Bool := true
  maxStringSize : Nat := 16 * 1024 * 1024
  maxContainerSize : Nat := 1000000
  /-- How deep values may be nested. -/
  maxDepth : Nat := 64
deriving DecidableEq, Repr

end Thrift
