import BoundSql.Session
import BoundSql.Proofs.Database

/-! Whole sessions. A step finds the database as the first step found it, but for the record, and
the record is written and never read: so every step of a session comes out as it would alone, and
the reports and records of a session are those of its steps, one after the other. -/

namespace BoundSql

variable {ν α β : Type} [Writable ν]

/-- The queries that were recorded. -/
def Run.recorded (x : Run α) : List Query := x.effects.filterMap Effect.recorded?

namespace Step

/-- The logger of the outermost decorator, or else the database's own. -/
def logger (s : Step ν α) : Logger := s.loggers.getLast?.getD Recording.logger

/-- What the step leaves in the record. -/
def recorded (d : Dialect) (s : Step ν α) : List Query :=
  if s.fetch.Waits then [Query.of d s.statement] else []

/-- The step without decorators, on a database that has run nothing before. -/
def alone (s : Step ν α) (r : Recording) : Run (Answer α) :=
  { s with loggers := [] }.run { r with executed := [] }

theorem run_eq (s : Step ν α) (r : Recording) :
    s.run r = ⟨s.fetch.answer s.decode r.delivery,
      s.fetch.trace ⟨s.logger, Query.of r.dialect s.statement⟩ r.delivery.rows,
      (s.database r).withSource (r.noting (s.recorded r.dialect))⟩ := by
  have hsource : (s.database r).source = r := Database.source_decorated _ s.loggers
  have hdialect : (s.database r).dialect = r.dialect := Database.dialect_decorated _ s.loggers
  have hlogger : (s.database r).logger = s.logger := Database.logger_decorated _ s.loggers
  rw [run, Database.fetch_eq, Database.query, hsource, hdialect, hlogger]
  rfl

theorem source_run (s : Step ν α) (r : Recording) :
    (s.run r).database.source = r.noting (s.recorded r.dialect) := by
  rw [run_eq, Database.source_withSource]

/-- A step records what it has reported, unless its execution is begun only. -/
theorem recorded_run (s : Step ν α) (r : Recording) :
    (s.run r).recorded =
      if s.fetch = .dropExecute then [] else (s.run r).events.map Event.query := by
  rw [Run.recorded, Run.events, s.run_eq, Fetch.recorded_trace, Fetch.events_trace]
  cases s.fetch <;> rfl

end Step

/-- What does not depend on the record is the same in a session as in its first step. -/
theorem map_session {r : Recording} {f : Run (Answer α) → β} {g : Step ν α → β}
    (h : ∀ s qs, f (s.run (r.noting qs)) = g s) (steps : List (Step ν α)) :
    (session r steps).map f = steps.map g := by
  -- the record that a step finds is any, so the steps before it do not matter
  have run (qs : List Query) : (session (r.noting qs) steps).map f = steps.map g := by
    induction steps generalizing qs with
    | nil => rfl
    | cons s rest ih =>
      simp only [session, List.map_cons, h, Step.source_run, Recording.noting_noting, ih]
  rw [← run [], Recording.noting_nil]

/-- The record grows by what each step leaves in it. -/
theorem source_session (r : Recording) (steps : List (Step ν α)) (k : Nat) :
    (session r steps)[k]?.map (·.database.source) =
      steps[k]?.map fun _ => r.noting ((steps.take (k + 1)).flatMap (Step.recorded r.dialect)) := by
  induction steps generalizing r k with
  | nil => rfl
  | cons s rest ih =>
    have hs := s.source_run r
    cases k with
    | zero => simp [session, hs]
    | succ k =>
      have := ih (r.noting (s.recorded r.dialect)) k
      simp only [session, List.getElem?_cons_succ, hs, this, Recording.noting_noting,
        List.take_succ_cons, List.flatMap_cons]
      rfl

/-- Each step of a session gives its answer, delivers its rows and records its query as if it ran
undecorated on a database with the same settings that has run nothing before. Its decorators decide
where the query is reported, and the outermost of them alone. -/
theorem steps_run_as_if_alone (r : Recording) (steps : List (Step ν α)) :
    (session r steps).map (·.result) = steps.map (fun s => (s.alone r).result) ∧
    (session r steps).map (·.effects) =
      steps.map (fun s => (s.alone r).effects.map (Effect.reportedTo s.logger)) ∧
    (∀ k, (session r steps)[k]?.map (·.database.source) = steps[k]?.map fun _ =>
      r.noting ((steps.take (k + 1)).flatMap fun s => (s.alone r).database.source.executed)) ∧
    ∀ (db : Database) (ls : List Logger),
      (db.decorated ls).dialect = db.dialect ∧
      (db.decorated ls).logger = ls.getLast?.getD db.logger := by
  refine ⟨map_session (fun s qs => ?_) steps, map_session (fun s qs => ?_) steps, ?_, ?_⟩
  · rw [Step.alone, Step.run_eq, Step.run_eq]
    rfl
  · rw [Step.alone, Step.run_eq, Step.run_eq, Fetch.trace_reportedTo]
    rfl
  · intro k
    have h (s : Step ν α) : (s.alone r).database.source.executed = s.recorded r.dialect := by
      rw [Step.alone, Step.source_run]
      exact List.nil_append _
    simp only [h, source_session]
  · intro db ls
    exact ⟨db.dialect_decorated ls, db.logger_decorated ls⟩

/-- A driver that fails behind its first row: the failure comes out of the step that waits for it, and
the decorators, one around the other, are gone in the next step. -/
example :
    let r : Recording :=
      { dialect := .sqlite, rows := [⟨[("a", .int 1)]⟩, ⟨[("a", .int 2)]⟩], failAfter := some 1 }
    let failing : Step Empty Unit :=
      { statement := .raw "SELECT a", fetch := .all, decode := fun _ => .ok ()
        loggers := [{ label := "inner", level := .warn }, { label := "outer", level := .info }] }
    let begun : Step Empty Unit :=
      { statement := .raw "DELETE", fetch := .dropExecute, decode := fun _ => .ok () }
    (session r [failing, begun, failing]).map (·.result) =
      [.rows (.error Recording.failure), .dropped, .rows (.error Recording.failure)] ∧
    (session r [failing, begun]).map (·.database.logger) =
      [{ label := "outer", level := .info }, Recording.logger] ∧
    (session r [failing, begun, failing]).map (·.database.source.executed.map (·.sql)) =
      [["SELECT a"], ["SELECT a"], ["SELECT a", "SELECT a"]] := by
  exact ⟨rfl, rfl, rfl⟩

/-- The record of a session is what was reported, without the reports of what was begun only. -/
theorem recorded_session (r : Recording) (steps : List (Step ν α)) :
    (session r steps).flatMap Run.recorded =
      ((steps.zip (session r steps)).filter fun x => x.1.fetch ≠ .dropExecute).flatMap fun x =>
        x.2.events.map Event.query := by
  induction steps generalizing r with
  | nil => rfl
  | cons s rest ih =>
    rw [session, List.flatMap_cons, s.recorded_run, List.zip_cons_cons, ih]
    by_cases h : s.fetch = .dropExecute
    · rw [if_pos h, List.filter_cons_of_neg (by simpa using h), List.nil_append]
    · rw [if_neg h, List.filter_cons_of_pos (by simpa using h), List.flatMap_cons]

/-- What a session shows, step by step: a query is reported, recorded and answered in this order, or
reported only, or nothing happens. So the record is what was reported without the reports of
executions that were begun only, and whatever is in it had been reported before. -/
theorem every_query_is_logged_before_it_runs (r : Recording) (steps : List (Step ν α)) :
    (session r steps).map (·.effects) = steps.map (fun s =>
      s.fetch.trace ⟨s.logger, Query.of r.dialect s.statement⟩ r.delivery.rows) ∧
    (∀ k, (session r steps)[k]?.map (·.database.source.executed) = steps[k]?.map fun _ =>
      r.executed ++ ((session r steps).take (k + 1)).flatMap Run.recorded) ∧
    ((session r steps).flatMap Run.recorded =
      ((steps.zip (session r steps)).filter fun x => x.1.fetch ≠ .dropExecute).flatMap fun x =>
        x.2.events.map Event.query) ∧
    Foretold ((session r steps).flatMap (·.effects)) := by
  have heffects : (session r steps).map (·.effects) = steps.map fun s =>
      s.fetch.trace ⟨s.logger, Query.of r.dialect s.statement⟩ r.delivery.rows :=
    map_session (fun s qs => by rw [s.run_eq]; rfl) steps
  have hrecorded : (session r steps).map Run.recorded = steps.map (Step.recorded r.dialect) :=
    map_session (fun s qs => by rw [Run.recorded, s.run_eq, Fetch.recorded_trace]; rfl) steps
  refine ⟨heffects, ?_, recorded_session r steps, ?_⟩
  · intro k
    have hpast : ((session r steps).take (k + 1)).flatMap Run.recorded =
        (steps.take (k + 1)).flatMap (Step.recorded r.dialect) := by
      rw [List.flatMap_def, List.map_take, hrecorded, ← List.map_take, ← List.flatMap_def]
    have h := congrArg (Option.map Recording.executed) (source_session r steps k)
    simp only [Option.map_map, Function.comp_def] at h
    rw [h, hpast]
    rfl
  · rw [List.flatMap_def, heffects, ← List.flatMap_def]
    exact .flatMap fun s => Fetch.foretold_trace _ _ _

/-- The query of an execution that is let go is reported and not recorded, and nothing is seen of a
run that is let go. -/
example :
    let r : Recording := { dialect := .sqlite, rows := [⟨[("a", .int 1)]⟩], failAfter := some 1 }
    let step (fetch : Fetch) : Step Empty Unit :=
      { statement := .raw "SELECT a", fetch, decode := fun _ => .ok (), loggers := [⟨"outer", .info⟩] }
    let q : Query := ⟨"SELECT a", []⟩
    (session r [step .dropExecute, step .dropRun, step .first]).map (·.effects) =
      [[.logged ⟨⟨"outer", .info⟩, q⟩], [],
        [.logged ⟨⟨"outer", .info⟩, q⟩, .recorded q, .delivered ⟨[("a", .int 1)]⟩]] := by
  rfl

end BoundSql
