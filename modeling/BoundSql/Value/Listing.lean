import BoundSql.Number.Layout
import BoundSql.Text.Escaped
import BoundSql.Value

/-! Values as they are listed in logs and reports: the shape's name with its content in
parentheses, and lists in square brackets. A listing is always a single line. -/

namespace BoundSql

/-- A listed float is positional between 10^-4 and 10^16, and beyond it only a negative power of ten
has a sign; of two nearest decimals the larger is written. -/
def Layout.listing : Layout := ⟨-4, 16, .up, false⟩

/-- Items in square brackets, with a comma and a space between them. -/
def listed (items : List String) : String := "[" ++ ", ".intercalate items ++ "]"

/-- How one value is listed. -/
def Value.listing : Value → String
  | .null => "Null"
  | .bool b => "Bool(" ++ (if b then "true" else "false") ++ ")"
  | .int n => "Int(" ++ toString n.toInt ++ ")"
  | .float x => "Float(" ++ Layout.listing.text x ++ ")"
  | .text s => "Text(" ++ Escaped.token s ++ ")"
  | .blob bytes => "Blob(" ++ listed (bytes.map fun b => toString b.toNat) ++ ")"

/-- How a list of values is listed. -/
def listing (values : List Value) : String := listed (values.map Value.listing)

example : listing [.null, .bool true, .int (-5), .blob [1, 2]] =
    "[Null, Bool(true), Int(-5), Blob([1, 2])]" := by decide +kernel

end BoundSql
