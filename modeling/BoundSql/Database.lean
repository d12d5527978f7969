import BoundSql.Expr.Writer
import BoundSql.Recording

/-! Running statements. A database writes a statement in its own dialect, reports the query to its
own logger and hands it to the driver; a decorator replaces nothing but the logger. Answers are
promised, and what a promise stands for happens only if somebody waits for it. -/

namespace BoundSql

/-- A recording database, perhaps behind decorators with loggers of their own. -/
inductive Database where
  | recording (r : Recording)
  /-- A database on loan, which hands on whatever it is asked for. -/
  | borrowed (owned : Database)
  | logging (inner : Database) (logger : Logger)

/-- What can be observed while statements run, in the order in which it happens. -/
inductive Effect where
  | logged (e : Event)
  | recorded (q : Query)
  | delivered (r : Row)

/-- The report, if the effect is one. -/
def Effect.event? : Effect → Option Event
  | logged e => some e
  | _ => none

namespace Database

/-- The logger of the outermost decorator, if there is one. -/
def logger : Database → Logger
  | recording _ => Recording.logger
  | borrowed owned => owned.logger
  | logging _ l => l

/-- The dialect, which no decorator changes. -/
def dialect : Database → Dialect
  | recording r => r.dialect
  | borrowed owned => owned.dialect
  | logging inner _ => inner.dialect

/-- The recording database behind all decorators. -/
def source : Database → Recording
  | recording r => r
  | borrowed owned => owned.source
  | logging inner _ => inner.source

/-- Borrows a database, with queries reported to another logger. -/
def withLogger (db : Database) (l : Logger) : Database := logging (borrowed db) l

/-- A database behind decorators, of which the last is the outermost. -/
def decorated (db : Database) (loggers : List Logger) : Database := loggers.foldl withLogger db

/-- The database below the outermost decorator. -/
def inner? : Database → Option Database
  | logging inner _ => some inner
  | _ => none

/-- Hands a query to the driver, through all decorators. -/
def executeQuery (q : Query) : Database → Delivery × Database
  | recording r =>
    let (d, r') := r.execute q
    (d, recording r')
  | borrowed owned =>
    let (d, owned') := owned.executeQuery q
    (d, borrowed owned')
  | logging inner l =>
    let (d, inner') := inner.executeQuery q
    (d, logging inner' l)

end Database

/-- A result, what was observed on the way to it, and the database afterwards. -/
structure Run (α : Type) where
  result : α
  effects : List Effect
  database : Database

/-- An answer that will be given by a database to whoever waits for it. -/
abbrev Promise (α : Type) : Type := Database → Run α

namespace Run

variable {α β : Type}

/-- Only the result is changed. -/
def map (f : α → β) (r : Run α) : Run β := ⟨f r.result, r.effects, r.database⟩

/-- Waits for a promised answer; what it brings about comes after what has happened already. -/
def wait (r : Run (Promise α)) : Run α :=
  let waited := r.result r.database
  { waited with effects := r.effects ++ waited.effects }

/-- Lets a promise go. What has happened already stays. -/
def drop (r : Run (Promise α)) : Run Unit := r.map fun _ => ()

/-- The reports made. -/
def events (r : Run α) : List Event := r.effects.filterMap Effect.event?

end Run

namespace Database

variable {ν : Type} [Writable ν]

/-- The query of a statement in the database's dialect. -/
def query (db : Database) (statement : Expr ν) : Query := Query.of db.dialect statement

/-- The driver's promise to run a query. -/
def perform (q : Query) : Promise Delivery := fun db =>
  let (d, db') := db.executeQuery q
  ⟨d, .recorded q :: d.rows.map .delivered, db'⟩

/-- Writes a statement and reports it, at once, and leaves the rest to the driver's promise. -/
def execute (db : Database) (statement : Expr ν) : Run (Promise Delivery) :=
  let q := db.query statement
  ⟨perform q, [.logged (db.logger.report q)], db⟩

/-- Promises to execute a statement, and does nothing at once. -/
def run (db : Database) (statement : Expr ν) : Run (Promise Delivery) :=
  ⟨fun db => (db.execute statement).wait, [], db⟩

end Database

end BoundSql
