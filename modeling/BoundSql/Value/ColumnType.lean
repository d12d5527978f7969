import BoundSql.Value.Bindable

/-! Types that a column can be read as. Reading is strict, but for two shapes that some databases
blur: a truth value may be stored as 0 or 1, and a float as a whole number. -/

namespace BoundSql

/-- A type with a shape of its own among the values. -/
inductive BaseType where
  | int
  | float
  | bool
  | text
  | blob
  deriving DecidableEq

namespace BaseType

/-- What is read at a base type. -/
abbrev Carrier : BaseType → Type
  | int => Int64
  | float => Binary64
  | bool => Bool
  | text => String
  | blob => List UInt8

/-- The name in messages about a value of another shape. -/
def expected : BaseType → String
  | int => "int"
  | float => "float"
  | bool => "bool"
  | text => "text"
  | blob => "blob"

/-- Reads a value, if it has the right shape. -/
def ofValue? : (t : BaseType) → Value → Option t.Carrier
  | int, .int n => some n
  | float, .float x => some x
  | float, .int n => some (.ofInt n.toInt)
  | bool, .bool b => some b
  | bool, .int n => if n = 0 then some false else if n = 1 then some true else none
  | text, .text s => some s
  | blob, .blob bytes => some bytes
  | _, _ => none

/-- The value that stands for what was read. -/
def toValue : (t : BaseType) → t.Carrier → Value
  | int, n => .int n
  | float, x => .float x
  | bool, b => .bool b
  | text, s => .text s
  | blob, bytes => .blob bytes

/-- Reading gives back what was bound. -/
@[simp] theorem ofValue?_toValue (t : BaseType) (x : t.Carrier) : t.ofValue? (t.toValue x) = some x := by
  cases t <;> rfl

end BaseType

/-- A type that a column can be read as. -/
inductive ColumnType where
  | base (t : BaseType)
  /-- Values of every shape, as they are. -/
  | any
  /-- Null besides the values of another type. -/
  | option (t : ColumnType)
  deriving DecidableEq

namespace ColumnType

/-- What is read at a type. -/
abbrev Carrier : ColumnType → Type
  | base t => t.Carrier
  | any => Value
  | option t => Option t.Carrier

/-- The name in messages; null is left out of it. -/
def expected : ColumnType → String
  | base t => t.expected
  | any => "any"
  | option t => t.expected

/-- Reads a value, if it has the right shape; an option takes null for itself. -/
def ofValue? : (t : ColumnType) → Value → Option t.Carrier
  | base t, v => t.ofValue? v
  | any, v => some v
  | option _, .null => some none
  | option t, v => (t.ofValue? v).map some

theorem ofValue?_option (t : ColumnType) {v : Value} (h : v ≠ .null) :
    (option t).ofValue? v = (t.ofValue? v).map some := by
  cases v with
  | null => exact absurd rfl h
  | _ => rfl

/-- The value that is bound for a term of a type. -/
def toValue : (t : ColumnType) → t.Carrier → Value
  | base t, x => t.toValue x
  | any, v => v
  | option _, none => .null
  | option t, some x => t.toValue x

instance (t : ColumnType) : Bindable t.Carrier := ⟨t.toValue⟩

end ColumnType

end BoundSql
