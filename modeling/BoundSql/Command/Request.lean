import BoundSql.Builder.Select
import BoundSql.Command.Filter
import BoundSql.Command.Arguments
import BoundSql.Command.Ordering

/-! A query described by the options of a command: filters are comparisons for equality, all of
which must hold, and without columns all of them are selected. -/

namespace BoundSql.Command

/-- What is asked for, but for the table. -/
structure Clauses where
  columns : List String := []
  filters : List (String × Value) := []
  orderings : List (String × Direction) := []
  limit : Option UInt64 := none
  offset : Option UInt64 := none
  distinct : Bool := false

/-- What is asked for. -/
structure Request extends Clauses where
  table : String

namespace Request

/-- The calls that fill in the query. -/
def calls {ν : Type} (r : Request) : List (SelectCall ν) :=
  [.table r.table] ++
  (if r.columns.isEmpty then [.column "*"] else r.columns.map .column) ++
  (if r.distinct then [.distinct] else []) ++
  r.filters.map (fun (column, value) => .restrict ⟨.and, .column column .equal value⟩) ++
  r.orderings.map (fun (column, direction) => .ordering column direction) ++
  r.limit.toList.map .limit ++
  r.offset.toList.map .offset

/-- The query that is asked for. -/
def select {ν : Type} (r : Request) : Select (Expr ν) := .build r.calls

end Request

/-- A request while its options are being read: the table may still be missing. -/
structure Draft extends Clauses where
  table : Option String := none

/-- The options that describe a query, and the one that asks for help. -/
inductive QueryOption where
  | table
  | column
  | filter
  | orderBy
  | limit
  | offset
  | distinct
  | help
  deriving DecidableEq

namespace QueryOption

/-- How each option is written. -/
def flag : QueryOption → Flag QueryOption
  | table => ⟨table, "table", some 't', some "TABLE", "Table to select from"⟩
  | column => ⟨column, "column", some 'c', some "COLUMNS",
      "Column to select; repeat for several (all if not specified)"⟩
  | filter => ⟨filter, "filter", some 'f', some "FILTERS",
      "Equality filter \x60column=value\x60; repeat to AND several"⟩
  | orderBy => ⟨orderBy, "order-by", some 'o', some "ORDER_BY",
      "Ordering \x60column\x60 or \x60column:desc\x60; repeat for several"⟩
  | limit => ⟨limit, "limit", some 'l', some "LIMIT", "Maximum number of rows"⟩
  | offset => ⟨offset, "offset", none, some "OFFSET", "Number of rows to skip"⟩
  | distinct => ⟨distinct, "distinct", none, none, "Drop duplicate rows"⟩
  | help => .ofHelp help

/-- All of the options. -/
def flags : List (Flag QueryOption) :=
  [table, column, filter, orderBy, limit, offset, distinct, help].map flag

end QueryOption

/-- A number of rows. -/
def readCount (s : String) : Except String UInt64 := (readUInt64 s).mapError IntegerError.message

namespace Draft

/-- Adds one option. -/
def add (d : Draft) (s : Setting QueryOption) : Except Halt Draft :=
  match s.flag.option with
  | .table => s.once d.table.isSome (.ok { d with table := some s.value })
  | .column => .ok { d with columns := d.columns ++ [s.value] }
  | .filter => (s.read readFilter).map fun f => { d with filters := d.filters ++ [f] }
  | .orderBy => (s.read readOrdering).map fun o => { d with orderings := d.orderings ++ [o] }
  | .limit => s.once d.limit.isSome ((s.read readCount).map fun n => { d with limit := some n })
  | .offset => s.once d.offset.isSome ((s.read readCount).map fun n => { d with offset := some n })
  | .distinct => s.once d.distinct (.ok { d with distinct := true })
  | .help => .error .help

/-- The finished request. -/
def finish (d : Draft) : Except Halt Request :=
  match d.table with
  | none => .error (.problem (.missing QueryOption.table.flag.usage))
  | some table => .ok { d.toClauses with table }

end Draft

/-- The request that arguments describe; the first thing wrong with them is reported. -/
def Request.ofArguments (arguments : List String) : Except Halt Request := do
  let s ← Scan.read QueryOption.flags Draft.add {} .none arguments
  match s.words with
  | w :: _ => throw (.problem (.unexpected w))
  | [] => (← s.settle Draft.add).finish

end BoundSql.Command
