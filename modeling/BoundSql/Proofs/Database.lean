import BoundSql.Proofs.Trace

/-! What comes of a fetch, whatever stands around the recording database. The rows and the record
are those of the database behind the decorators, the query is written in its dialect, and nothing
but the report tells one decorator from another. -/

namespace BoundSql

/-- What is delivered, whatever the query. -/
def Recording.delivery (r : Recording) : Delivery := replay r.failAfter 0 r.rows

/-- A run that fails, fails because the connection does. -/
theorem Recording.outcome_replay (failAfter : Option Nat) (delivered : Nat) (rows : List Row) :
    (replay failAfter delivered rows).outcome = .ok () ∨
      (replay failAfter delivered rows).outcome = .error failure := by
  induction rows generalizing delivered with
  | nil =>
    cases failAfter with
    | none => exact .inl rfl
    | some n => by_cases h : delivered ≤ n <;> simp [replay, h]
  | cons r rows ih =>
    by_cases h : failAfter = some delivered
    · exact .inr (by simp [replay, h])
    · simpa [replay, h] using ih (delivered + 1)

theorem Recording.outcome_delivery (r : Recording) :
    r.delivery.outcome = .ok () ∨ r.delivery.outcome = .error failure :=
  outcome_replay r.failAfter 0 r.rows

/-- The same database with some more queries in its record. -/
def Recording.noting (r : Recording) (qs : List Query) : Recording :=
  { r with executed := r.executed ++ qs }

@[simp] theorem Recording.noting_nil (r : Recording) : r.noting [] = r :=
  congrArg (fun qs => { r with executed := qs }) (List.append_nil r.executed)

theorem Recording.noting_noting (r : Recording) (ps qs : List Query) :
    (r.noting ps).noting qs = r.noting (ps ++ qs) :=
  congrArg (fun qs => { r with executed := qs }) (List.append_assoc r.executed ps qs)

namespace Database

/-- The same decorators around another recording database. -/
def withSource (r : Recording) : Database → Database
  | recording _ => recording r
  | borrowed owned => borrowed (owned.withSource r)
  | logging inner l => logging (inner.withSource r) l

@[simp] theorem source_withSource (r : Recording) (db : Database) :
    (db.withSource r).source = r := by
  induction db with
  | recording => rfl
  | borrowed owned ih => exact ih
  | logging inner l ih => exact ih

theorem withSource_source (db : Database) : db.withSource db.source = db := by
  induction db with
  | recording => rfl
  | borrowed owned ih => exact congrArg borrowed ih
  | logging inner l ih => exact congrArg (logging · l) ih

theorem dialect_eq_source (db : Database) : db.dialect = db.source.dialect := by
  induction db with
  | recording => rfl
  | borrowed owned ih => exact ih
  | logging inner l ih => exact ih

/-- However it is reached, the recording database delivers its rows and records the query. -/
theorem executeQuery_eq (q : Query) (db : Database) :
    db.executeQuery q = (db.source.delivery, db.withSource (db.source.noting [q])) := by
  induction db with
  | recording => rfl
  | borrowed owned ih => rw [executeQuery, ih]; rfl
  | logging inner l ih => rw [executeQuery, ih]; rfl

@[simp] theorem source_decorated (db : Database) (ls : List Logger) :
    (db.decorated ls).source = db.source := by
  induction ls generalizing db with
  | nil => rfl
  | cons l ls ih => exact ih (db.withLogger l)

@[simp] theorem dialect_decorated (db : Database) (ls : List Logger) :
    (db.decorated ls).dialect = db.dialect := by
  rw [dialect_eq_source, source_decorated, dialect_eq_source]

theorem logger_decorated (db : Database) (ls : List Logger) :
    (db.decorated ls).logger = ls.getLast?.getD db.logger := by
  induction ls generalizing db with
  | nil => rfl
  | cons l ls ih =>
    have h := ih (db.withLogger l)
    rw [List.getLast?_cons]
    exact h

section Fetch

variable {ν α : Type} [Writable ν] (decode : Row → Except DecodeError α) (f : Fetch)
  (statement : Expr ν) (db : Database)

/-- The answer, what is observed and what is left of the database. -/
theorem fetch_eq :
    db.fetch decode f statement =
      ⟨f.answer decode db.source.delivery,
        f.trace (db.logger.report (db.query statement)) db.source.delivery.rows,
        db.withSource (db.source.noting (if f.Waits then [db.query statement] else []))⟩ := by
  have hdropped : db.withSource (db.source.noting []) = db := by
    rw [Recording.noting_nil, withSource_source]
  cases f with
  | dropRun | dropExecute => exact congrArg (Run.mk _ _) hdropped.symm
  | _ => simp only [fetch, run, execute, Run.wait, Run.map, perform, executeQuery_eq]; rfl

end Fetch

end Database

end BoundSql
