import BoundSql.Recording
import BoundSql.Sqlite.Declaration
import BoundSql.Sqlite.Failure

/-! What becomes of values that are bound to a statement and read back. The database holds data in
storage classes of its own, with numbers for truth values, and the declared type of a column makes
truth values of them again. -/

namespace BoundSql.Sqlite

/-- A column of a result, with the declaration of the table's column that it shows. -/
structure Column where
  name : String
  declaration : Option String := none
  deriving DecidableEq

namespace Column

/-- Whether the declared type is the one for truth values. -/
def isBoolean (c : Column) : Bool :=
  c.declaration.any Declaration.isBoolean

end Column

/-- An argument of a statement, by the type under which it is bound. -/
inductive Argument where
  | absent
  | truth (b : Bool)
  | whole (n : Int64)
  | double (x : Binary64)
  | text (s : String)
  | bytes (bytes : List UInt8)
  deriving DecidableEq

/-- What a database holds in one place, by its storage class. -/
inductive Datum where
  | null
  | integer (n : Int64)
  | real (x : Binary64)
  | text (s : String)
  | blob (bytes : List UInt8)
  /-- A datum of a class that is not known here. -/
  | other (typeName : String)
  deriving DecidableEq

namespace Argument

/-- What is bound for a value. -/
def ofValue : Value → Argument
  | .null => absent
  | .bool b => truth b
  | .int n => whole n
  | .float x => double x
  | .text s => text s
  | .blob bs => bytes bs

/-- What a database holds for an argument. -/
def held : Argument → Datum
  | absent => .null
  | truth b => .integer (if b then 1 else 0)
  | whole n => .integer n
  | double x => if x.isNaN then .null else .real x
  | text s => .text s
  | bytes bs => .blob bs

end Argument

/-- The value of a datum in a column. -/
def Datum.value (column : String) : Datum → Except Failure Value
  | null => .ok .null
  | integer n => .ok (.int n)
  | real x => .ok (.float x)
  | text s => .ok (.text s)
  | blob bytes => .ok (.blob bytes)
  | other typeName => .error (.unsupportedType column typeName)

/-- A value as a column shows it. -/
def Column.shown (c : Column) : Value → Value
  | .int n => if c.isBoolean then .bool (n ≠ 0) else .int n
  | v => v

/-- Reads one datum. -/
def Column.read (c : Column) (d : Datum) : Except Failure (String × Value) :=
  (d.value c.name).map fun v => (c.name, c.shown v)

/-- Reads the data of a row from left to right. -/
def readRow (columns : List Column) (data : List Datum) : Except Failure Row := do
  return ⟨← (columns.zip data).mapM fun (c, d) => c.read d⟩

/-- Delivers row after row; the first that cannot be read ends it. -/
def deliver (columns : List Column) : List (List Datum) → Delivery
  | [] => ⟨[], .ok ()⟩
  | data :: rest =>
    match readRow columns data with
    | .ok r =>
      let d := deliver columns rest
      ⟨r :: d.rows, d.outcome⟩
    | .error reason => ⟨[], .error reason.toError⟩

/-- What a database answers to a query that asks for its own arguments. -/
abbrev Engine : Type := List Argument → List Datum

/-- The columns of such a query, which are of no table. -/
def undeclared (names : List String) : List Column := names.map fun name => { name }

/-- The rows of queries that ask for values under given names. -/
def Engine.readValues (engine : Engine) (names : List String) (rows : List (List Value)) : Delivery :=
  deliver (undeclared names) (rows.map fun values => engine (values.map .ofValue))

/-- The same, if arguments are given back as they are held. -/
def readValues (names : List String) (rows : List (List Value)) : Delivery :=
  Engine.readValues (·.map Argument.held) names rows

end BoundSql.Sqlite
