import BoundSql.Command.Line
import BoundSql.Command.Sealed
import BoundSql.Expr.Writer
import BoundSql.Json.Text
import BoundSql.Value.Listing

/-! Running commands. One command prints the query it is asked for: the text on a line, and each value
on a line of its own with the number of its placeholder. The others run a query or a statement, and
print each row on a line. -/

namespace BoundSql.Command

/-- The line of a value. -/
def valueLine (position : Nat) (v : Value) : String :=
  "  [" ++ toString position ++ "] " ++ v.listing ++ "\n"

/-- The text of a query and its values. -/
def report (q : Query) : String :=
  q.sql ++ "\n" ++ String.join (q.binds.mapIdx fun i v => valueLine (i + 1) v)

/-- The query of a request in the dialect of the command. -/
def Request.query (r : Request) : Query := Query.of .sqlite (Expr.select (ν := Empty) r.select)

/-- The line of a row. -/
def rowLine (r : Row) : String := r.json.text ++ "\n"

namespace Host

/-- The outcome of a query that is answered. Every row is written as it arrives, also in front of a
failure; only a run that ends well is followed by further notices. -/
def answered (host : Host) (config : Sqlite.Config) (q : Query) (after : Nat → List Notice)
    (response : Response) : Outcome :=
  let d := response.delivery
  let output := String.join (d.rows.map rowLine)
  let logger : Logger := { label := config.loggerLabel }
  let begun := [.connected config, .executing (logger.report q)]
  match d.outcome with
  | .ok () => { status := some 0, output, notices := begun ++ after d.rows.length ++ [.closed] }
  | .error e => { host.failed (response.faultOf e) with output, notices := begun }

/-- Opens a database and runs a query on it. -/
def deliver (host : Host) (config : Sqlite.Config) (q : Query) (after : Nat → List Notice) :
    Outcome :=
  match host.prepare config with
  | .error broken => broken
  | .ok () =>
    match host.connect config with
    | .error f => host.failed (f.behind "Database error: ")
    | .ok connection => host.answered config q after (connection.ask q)

/-- Does what a command line asks for. -/
def perform (host : Host) (config : Sqlite.Config) : Task → Outcome
  | .query r => host.deliver config r.query fun n => [.delivered n]
  | .exec statement =>
    host.deliver config (Query.of .sqlite (Expr.raw (ν := Empty) statement)) fun _ => []
  | .sql r =>
    match host.prepare config with
    | .error broken => broken
    | .ok () => { status := some 0, output := report r.query }

/-- Runs a command line. -/
def run (host : Host) (arguments : List String) : Outcome :=
  match readCommandLine arguments with
  | .error (.problem p) => { status := some 2, complaint := some p.complaint }
  | .error .help => { status := some 0, output := Common.help.text }
  | .error (.answer text) => { status := some 0, output := text }
  | .ok (common, task) =>
    let outcome := host.perform common.config task
    { outcome with notices := outcome.notices.filter (·.isShown common.verbose) }

end Host

/-- Runs a command line where no database can be opened. -/
def run (arguments : List String) : Outcome := Host.sealed.run arguments

end BoundSql.Command
