-- Names between double quotes, as a diagnostic shows them: quotes, backslashes and characters
-- that leave no mark of their own are escaped.
import Thrift.Text.HiddenTable

namespace Thrift.Text

/-- The hexadecimal digits of a number, lower case and without leading zeros. -/
def hexText (n : Nat) : String := String.ofList (Nat.toDigits 16 n)

def isHidden (c : Char) : Bool :=
  hiddenRanges.any fun (lo, hi) => lo ≤ c.toNat && c.toNat ≤ hi

/-- One character as it stands between the quotes. -/
def quotedChar (c : Char) : String :=
  if c = '"' then "\\\""
  else if c = '\\' then "\\\\"
  else if c = '\n' then "\\n"
  else if c = '\r' then "\\r"
  else if c = '\t' then "\\t"
  else if c = '\x00' then "\\0"
  else if isHidden c then "\\u\x7b" ++ hexText c.toNat ++ "\x7d"
  else c.toString

/-- A name between quotes. -/
def quoted (s : String) : String := "\"" ++ String.join (s.toList.map quotedChar) ++ "\""

end Thrift.Text
