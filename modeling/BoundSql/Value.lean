import BoundSql.Number.Binary64

/-! The values that travel beside the text of a query and never inside it. -/

namespace BoundSql

/-- A value sent to a database through a placeholder, or read from a column of a row. -/
inductive Value where
  | null
  | bool (b : Bool)
  | int (n : Int64)
  | float (x : Binary64)
  | text (s : String)
  | blob (bytes : List UInt8)
  deriving DecidableEq, Inhabited

namespace Value

/-- The short name of a value's shape. -/
def typeName : Value → String
  | null => "null"
  | bool _ => "bool"
  | int _ => "int"
  | float _ => "float"
  | text _ => "text"
  | blob _ => "blob"

def isNull : Value → Bool
  | null => true
  | _ => false

@[simp] theorem isNull_iff {v : Value} : v.isNull = true ↔ v = null := by cases v <;> simp [isNull]

end Value

end BoundSql
