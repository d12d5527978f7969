import BoundSql.Query
import BoundSql.Value.Listing

/-! Queries are reported before they run, under the label and at the level of a logger. -/

namespace BoundSql

/-- How important a report is. -/
inductive Level where
  | error
  | warn
  | info
  | debug
  | trace
  deriving DecidableEq

/-- Where reports of queries go. -/
structure Logger where
  label : String
  level : Level := .debug
  deriving DecidableEq

/-- The report of one query. -/
structure Event where
  logger : Logger
  query : Query
  deriving DecidableEq

namespace Event

/-- What every report says. -/
def message : String := "executing query"

/-- The values of the query on one line. -/
def bindsText (e : Event) : String := listing e.query.binds

end Event

/-- The report of a query. -/
def Logger.report (l : Logger) (q : Query) : Event := ⟨l, q⟩

end BoundSql
