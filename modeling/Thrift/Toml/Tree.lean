-- TOML values as trees.

namespace Thrift

/-- A value of a settings file. No setting takes a float or a date, so of these only the kind
is kept. -/
inductive Toml
  | string (s : String)
  | integer (n : Int64)
  | float
  | boolean (b : Bool)
  | date
  | array (items : List Toml)
  | table (members : List (String × Toml))
deriving Inhabited

end Thrift
