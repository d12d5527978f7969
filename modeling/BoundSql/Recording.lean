import BoundSql.Logger
import BoundSql.Row

/-! A database that remembers the queries it is asked to run, and answers each with the same rows.
It can be told to fail once it has delivered a number of them. -/

namespace BoundSql

/-- What comes of running a query: the rows that arrived, and how it ended. -/
structure Delivery where
  rows : List Row
  outcome : Except Error Unit

/-- Fixed rows, and the queries run so far, the oldest first. -/
structure Recording where
  dialect : Dialect
  rows : List Row := []
  /-- The number of rows after which every query fails. -/
  failAfter : Option Nat := none
  executed : List Query := []

namespace Recording

/-- How the failure presents itself. -/
def failure : Error := .driver "connection reset"

/-- Where its queries are reported. -/
def logger : Logger := { label := "oxide_sqlkit::testing" }

/-- Delivers rows one by one, and fails when the number of delivered rows is reached. -/
def replay (failAfter : Option Nat) (delivered : Nat) : List Row → Delivery
  | [] =>
    match failAfter with
    | some n => if delivered ≤ n then ⟨[], .error failure⟩ else ⟨[], .ok ()⟩
    | none => ⟨[], .ok ()⟩
  | r :: rest =>
    if failAfter = some delivered then ⟨[], .error failure⟩
    else
      let d := replay failAfter (delivered + 1) rest
      ⟨r :: d.rows, d.outcome⟩

/-- Notes the query, whatever becomes of it, and delivers the rows. -/
def execute (q : Query) (r : Recording) : Delivery × Recording :=
  (replay r.failAfter 0 r.rows, { r with executed := r.executed ++ [q] })

end Recording

end BoundSql
