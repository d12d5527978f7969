import BoundSql.Number.Decimal
import BoundSql.Number.Integer
import BoundSql.Text.Split
import BoundSql.Value

/-! Filters as they are written on a command line: a column path, an equals sign and a value. The
first equals sign counts, and all others belong to the value. -/

namespace BoundSql.Command

/-- A value that looks like a number is one; words for infinity or for no number are text. -/
def filterValue (s : String) : Value :=
  match readInt64 s with
  | .ok n => .int n
  | .error _ =>
    match readBinary64? s with
    | some x => if x.isFinite then .float x else .text s
    | none => .text s

/-- Reads a filter; the path must not be empty. -/
def readFilter (s : String) : Except String (String × Value) :=
  match Split.first? '=' s with
  | none => .error ("expected column=value, got '" ++ s ++ "'")
  | some (column, value) =>
    if column = "" then .error ("missing column name in '" ++ s ++ "'")
    else .ok (column, filterValue value)

end BoundSql.Command
