import BoundSql.Sqlite.Storage
import BoundSql.Text.Split

/-! A table of a database file, and what a query reads of it. Every row is stored under a number,
and rows are read in the order of their numbers. A query names columns by paths; a path may lead to
a column that is named in another way, to all columns, or to the number. -/

namespace BoundSql.Sqlite

/-- The case of letters makes no difference between names; only that of ASCII letters is known. -/
def sameName (a b : String) : Bool := a.toList.map Char.toLower = b.toList.map Char.toLower

/-- The names of the number of a row, where no column is named so. -/
def numberNames : List String := ["rowid", "oid", "_rowid_"]

/-- Columns under the name of their table. -/
structure Table where
  name : String
  columns : List Column

/-- A row, with the number under which it is stored. -/
structure StoredRow where
  number : Int64
  data : List Datum

/-- What a query may read of a row. -/
inductive Source where
  | number
  | column (c : Column) (index : Nat)

/-- A column as a query names it, perhaps with its table. -/
structure Reference where
  table : Option String
  column : String

/-- The name as it is written. -/
def Reference.path (r : Reference) : String := (r.table.elim "" (· ++ ".")) ++ r.column

namespace Source

/-- The column of the result. -/
def heading : Source → Column
  | number => ⟨"rowid", none⟩
  | column c _ => c

/-- What a row holds there. -/
def datum (r : StoredRow) : Source → Datum
  | number => .integer r.number
  | column _ i => r.data.getD i .null

end Source

namespace Table

/-- The first column with a property. -/
def find? (t : Table) (p : Column → Bool) : Option Source :=
  (t.columns.zipIdx.find? fun (c, _) => p c).map fun (c, i) => .column c i

/-- The column that holds the number of a row, or else the number itself. -/
def number (t : Table) : Source :=
  (t.find? fun c => c.declaration.any Declaration.isRowNumber).getD .number

/-- References to all columns. -/
def references (t : Table) : List Reference := t.columns.map fun c => ⟨some t.name, c.name⟩

/-- The references that a path stands for. The first point separates the table from the column, and
a star stands for all columns. -/
def expand (t : Table) (path : String) : Except QueryError (List Reference) :=
  if path = "*" then .ok t.references
  else
    match Split.first? '.' path with
    | none => .ok [⟨none, path⟩]
    | some (table, "*") =>
      if sameName table t.name then .ok t.references else .error (.noSuchTable table)
    | some (table, column) => .ok [⟨some table, column⟩]

/-- What a reference leads to: a column, or the number of the row. -/
def resolve (t : Table) (r : Reference) : Except QueryError Source :=
  if r.table.all (sameName · t.name) then
    match t.find? (sameName r.column ·.name) with
    | some s => .ok s
    | none =>
      if numberNames.any (sameName r.column) then .ok t.number
      else .error (.noSuchColumn r.path)
  else .error (.noSuchColumn r.path)

/-- What paths lead to. All stars are replaced before the first column is looked up. -/
def sources (t : Table) (paths : List String) : Except QueryError (List Source) := do
  (← paths.mapM t.expand).flatten.mapM t.resolve

/-- Stores data as a row. Its number is in the column for numbers, or else follows the last. -/
def insert (t : Table) (rows : List StoredRow) (data : List Datum) : List StoredRow :=
  let next := (rows.getLast?.map (·.number + 1)).getD 1
  let row : StoredRow :=
    match t.number with
    | .number => ⟨next, data⟩
    | .column _ i =>
      match data[i]? with
      | some (.integer n) => ⟨n, data⟩
      | _ => ⟨next, data.set i (.integer next)⟩
  let (before, behind) := rows.span (·.number ≤ row.number)
  before ++ row :: behind

/-- The rows in which lists of values are stored. -/
def store (t : Table) (rows : List (List Value)) : List StoredRow :=
  (rows.map fun values => values.map fun v => (Argument.ofValue v).held).foldl t.insert []

/-- What is read by paths after lists of values were stored. -/
def read (t : Table) (rows : List (List Value)) (paths : List String) : Delivery :=
  match t.sources paths with
  | .ok sources =>
    deliver (sources.map Source.heading) ((t.store rows).map fun r => sources.map (·.datum r))
  | .error reason => ⟨[], .error (Failure.connection (.query reason)).toError⟩

example : (read ⟨"t", [⟨"x", none⟩, ⟨"t.x", "BOOL"⟩]⟩ [[.int 5, .int 1]]
    ["x", "T.X", "t.t.x", "t.oid"]).rows =
    [⟨[("x", .int 5), ("x", .int 5), ("t.x", .bool true), ("rowid", .int 1)]⟩] := by
  decide +kernel

example : (read ⟨"t", [⟨"id", "INTEGER PRIMARY KEY"⟩]⟩ [[.int 3], [.int 1], [.null]]
    ["t.*"]).rows =
    [⟨[("id", .int 1)]⟩, ⟨[("id", .int 3)]⟩, ⟨[("id", .int 4)]⟩] := by
  decide +kernel

end Table

end BoundSql.Sqlite
