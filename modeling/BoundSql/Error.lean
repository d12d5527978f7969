import BoundSql.Json
import BoundSql.Number.Layout
import BoundSql.Text.Escaped
import BoundSql.Value.ColumnType

/-! Everything that can go wrong when statements run and rows are read, and what is said about it.
Names of columns are put into messages as they are. -/

namespace BoundSql

/-- A float in a message is positional between 10^-5 and 10^16, and beyond it the power of ten has a
sign; a tie goes to the even digit. -/
def Layout.message : Layout := ⟨-5, 16, .even, true⟩

/-- How a message speaks of a value in interchange form. -/
def Json.described : Json → String
  | .null => "null"
  | .boolean b => "boolean \x60" ++ (if b then "true" else "false") ++ "\x60"
  | .integer n => "integer \x60" ++ toString n.toInt ++ "\x60"
  | .number x => "floating point \x60" ++ Layout.message.text x ++ "\x60"
  | .string s => "string " ++ Escaped.token s
  | .array _ => "sequence"

/-- How a message speaks of what a field of a record may hold. -/
def BaseType.described : BaseType → String
  | .int => "i64"
  | .float => "f64"
  | .bool => "a boolean"
  | .text => "a string"
  | .blob => "a sequence"

/-- Why a row is no record of a model. -/
inductive ModelError where
  | invalidType (found : Json) (expected : BaseType)
  | missingField (name : String)
  deriving DecidableEq

def ModelError.message : ModelError → String
  | invalidType found expected =>
    "invalid type: " ++ found.described ++ ", expected " ++ expected.described
  | missingField name => "missing field \x60" ++ name ++ "\x60"

/-- Why a row or one of its columns cannot be read. -/
inductive DecodeError where
  | missingColumn (column : String)
  | typeMismatch (column : String) (expected : String) (found : String)
  | unsupportedValue (column : String) (typeName : String)
  | model (reason : ModelError)
  deriving DecidableEq

def DecodeError.message : DecodeError → String
  | missingColumn column => "missing column '" ++ column ++ "'"
  | typeMismatch column expected found =>
    "column '" ++ column ++ "': expected " ++ expected ++ ", found " ++ found
  | unsupportedValue column typeName =>
    "column '" ++ column ++ "': unsupported value type '" ++ typeName ++ "'"
  | model reason => "cannot decode row: " ++ reason.message

/-- Why a statement failed. -/
inductive Error where
  | decode (reason : DecodeError)
  /-- What the driver said. -/
  | driver (text : String)
  deriving DecidableEq

def Error.message : Error → String
  | decode reason => reason.message
  | driver text => "driver error: " ++ text

end BoundSql
