import BoundSql.Operator
import BoundSql.Statement.Insert
import BoundSql.Statement.Select
import BoundSql.Statement.Update
import BoundSql.Statement.Delete
import BoundSql.Text.Split

/-! Expression trees. Statements are expressions too, so that they can be nested, and a caller may
add nodes of its own; `Expr Empty` has none of those. -/

namespace BoundSql

/-- A constant that is part of the text. -/
inductive Literal where
  /-- All columns. -/
  | all
  /-- The default value of a column. -/
  | default
  | null
  | boolean (b : Bool)
  /-- A number as it was given. -/
  | numeric (digits : String)
  | string (s : String)
  deriving DecidableEq

/-- An expression, over the caller's own nodes. -/
inductive Expr (ν : Type) where
  /-- Text that is written as it stands. -/
  | raw (sql : String)
  | identifier (name : String)
  /-- A column, perhaps of a named table. -/
  | column (table : Option String) (name : String)
  /-- An expression under another name. -/
  | aliased (expr : Expr ν) (name : String)
  | literal (l : Literal)
  /-- A value behind a placeholder. -/
  | bind (value : Value)
  /-- Values behind placeholders, between parentheses. -/
  | binds (values : List Value)
  | list (items : List (Expr ν)) (separator : Expr ν)
  | group (expr : Expr ν)
  | binary (left : Expr ν) (op : Operator) (right : Expr ν)
  /-- An operator that stands alone. -/
  | operator (op : Operator)
  | function (name : String) (args : List (Expr ν))
  | join (method : JoinMethod) (table : Expr ν) (condition : Option (Expr ν))
  | order (expr : Expr ν) (direction : Direction)
  | lock (mode : LockMode)
  /-- An expression after a space, or nothing if the expression has no text. -/
  | spaced (expr : Expr ν)
  | select (s : Select (Expr ν))
  | insert (s : Insert (Expr ν))
  | update (s : Update (Expr ν))
  | delete (s : Delete (Expr ν))
  /-- A node of the caller's own. -/
  | own (node : ν)

namespace Expr

variable {ν : Type}

/-- A list with commas. -/
def commaList (items : List (Expr ν)) : Expr ν := list items (raw ", ")

/-- All columns, and all rows counted. -/
def countAll : Expr ν := function "COUNT" [literal .all]

/-- A column named by a path, in which the first point separates the table from the name. -/
def ofPath (path : String) : Expr ν :=
  match Split.first? '.' path with
  | some (table, name) => column (some table) name
  | none => column none path

/-- A name that may stand for all columns when they are selected. -/
def ofSelected (name : String) : Expr ν := if name = "*" then literal .all else ofPath name

/-- Columns by their bare names, which are not taken apart. -/
def namedColumns (names : List String) : List (Expr ν) := names.map (column none)

/-- A comparison of a column with a value. -/
def comparison (column : Expr ν) (op : Operator) (value : Value) : Expr ν :=
  binary column op (bind value)

end Expr

end BoundSql
