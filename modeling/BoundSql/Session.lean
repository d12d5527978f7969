import BoundSql.Fetch

/-! Sessions: a recording database, and steps that each run a statement on it, perhaps through
decorators that are put around it for the step alone. -/

namespace BoundSql

/-- One step of a session; rows are read as terms of a type. -/
structure Step (ν α : Type) where
  statement : Expr ν
  fetch : Fetch
  decode : Row → Except DecodeError α
  /-- The loggers of the decorators, the outermost last. -/
  loggers : List Logger := []

variable {ν α : Type} [Writable ν]

namespace Step

/-- The database that the step runs on. -/
def database (s : Step ν α) (r : Recording) : Database :=
  (Database.recording r).decorated s.loggers

/-- Runs the step. -/
def run (s : Step ν α) (r : Recording) : Run (Answer α) :=
  (s.database r).fetch s.decode s.fetch s.statement

end Step

/-- Runs the steps in turn, each on what the one before it left of the recording database. -/
def session (r : Recording) : List (Step ν α) → List (Run (Answer α))
  | [] => []
  | s :: rest =>
    let x := s.run r
    x :: session x.database.source rest

end BoundSql
