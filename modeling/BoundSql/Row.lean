import BoundSql.Error

/-! Rows of a result. A name may stand for several columns, and looking it up finds the first. -/

namespace BoundSql

/-- The named values of one row, in the order of the columns. -/
structure Row where
  cells : List (String × Value)
  deriving DecidableEq, Inhabited

/-- Reads the value of a column. -/
def ColumnType.decode (t : ColumnType) (column : String) (v : Value) :
    Except DecodeError t.Carrier :=
  match t.ofValue? v with
  | some x => .ok x
  | none => .error (.typeMismatch column t.expected v.typeName)

namespace Row

def columns (r : Row) : List String := r.cells.map Prod.fst

/-- The value of the first column of a name. -/
def value? (r : Row) (column : String) : Option Value := r.cells.lookup column

/-- Whether some column has the name. -/
def contains (r : Row) (column : String) : Bool := r.columns.any (· == column)

/-- Whether a column holds null. -/
def decodeNull (r : Row) (column : String) : Except DecodeError Bool :=
  match r.value? column with
  | some v => .ok v.isNull
  | none => .error (.missingColumn column)

/-- Reads a column at a type. -/
def decode (r : Row) (t : ColumnType) (column : String) : Except DecodeError t.Carrier :=
  match r.value? column with
  | some v => t.decode column v
  | none => .error (.missingColumn column)

/-- The row in interchange form: one entry after another, each with the value its name finds. -/
def json (r : Row) : JsonObject :=
  r.columns.foldl (fun o c => JsonObject.insert c (((r.value? c).map Value.json).getD .null) o) []

end Row

end BoundSql
