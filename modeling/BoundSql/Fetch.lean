import BoundSql.Database
import BoundSql.Model

/-! The ways to ask for rows. Each hands the rows to a handler one by one as they arrive, and looks
at what the handler has kept once the run has ended. Reading a row may have effects of its own, in
any monad. -/

namespace BoundSql

variable {m : Type → Type} [Monad m] {α σ : Type}

/-- Reads a row. -/
abbrev Decoder (m : Type → Type) (α : Type) : Type := Row → m (Except DecodeError α)

/-- A handler of rows: what it keeps after one more row. -/
abbrev Handler (m : Type → Type) (σ : Type) : Type := σ → Row → m σ

namespace Handler

/-- Keeps every row. -/
def collect : Handler m (List Row) := fun kept r => return kept ++ [r]

/-- Keeps the first row only. -/
def keepFirst : Handler m (Option Row)
  | none, r => return some r
  | some kept, _ => return some kept

/-- Reads every row, and keeps what came of it. -/
def decodeEach (decode : Decoder m α) : Handler m (List (Except Error α)) :=
  fun kept r => return kept ++ [(← decode r).mapError .decode]

/-- Reads rows and keeps what was read, until one cannot be read; no later row is read. -/
def decodeAll (decode : Decoder m α) : Handler m (Except DecodeError (List α))
  | .error e, _ => return .error e
  | .ok kept, r => return (← decode r).map fun x => kept ++ [x]

end Handler

namespace Delivery

/-- What a handler has kept of the rows that arrived. -/
def handled (d : Delivery) (h : Handler m σ) (start : σ) : m σ := d.rows.foldlM h start

/-- Whatever was kept is lost if the run failed. -/
def unlessFailed (d : Delivery) (kept : σ) : Except Error σ := d.outcome.map fun _ => kept

/-- All rows. -/
def all (d : Delivery) : m (Except Error (List Row)) :=
  return d.unlessFailed (← d.handled .collect [])

/-- The first row, if there is one. -/
def first (d : Delivery) : m (Except Error (Option Row)) :=
  return d.unlessFailed (← d.handled .keepFirst none)

/-- Every row read on its own, however the run ended. -/
def decodings (decode : Decoder m α) (d : Delivery) : m (List (Except Error α)) :=
  d.handled (.decodeEach decode) []

/-- The first row read, if there is one; it is read once the run has ended well. -/
def firstDecoded (decode : Decoder m α) (d : Delivery) : m (Except Error (Option α)) := do
  match ← d.first with
  | .error e => return .error e
  | .ok none => return .ok none
  | .ok (some r) =>
    match ← decode r with
    | .ok x => return .ok (some x)
    | .error e => return .error (.decode e)

/-- All rows read; a row that cannot be read counts even if the run then failed. -/
def allDecoded (decode : Decoder m α) (d : Delivery) : m (Except Error (List α)) := do
  match ← d.handled (.decodeAll decode) (.ok []) with
  | .error e => return .error (.decode e)
  | .ok xs => return d.unlessFailed xs

end Delivery

/-- A way to run a statement and to take its rows. -/
inductive Fetch where
  | run
  | execute
  | all
  | first
  | runDecoding
  | firstDecoding
  | allDecoding
  /-- A run that is prepared and never waited for. -/
  | dropRun
  /-- An execution that is begun and never waited for. -/
  | dropExecute
  deriving DecidableEq

/-- What a fetch gives to its caller, rows being read as terms of some type. -/
inductive Answer (α : Type) where
  | delivery (d : Delivery)
  | rows (result : Except Error (List Row))
  | row (result : Except Error (Option Row))
  | decodings (results : List (Except Error α)) (outcome : Except Error Unit)
  | decoded (result : Except Error (Option α))
  | allDecoded (result : Except Error (List α))
  | dropped

/-- Takes an answer out of what was delivered. -/
def Fetch.take (decode : Decoder m α) (d : Delivery) : Fetch → m (Answer α)
  | run | execute => return .delivery d
  | all => return .rows (← d.all)
  | first => return .row (← d.first)
  | runDecoding => return .decodings (← d.decodings decode) d.outcome
  | firstDecoding => return .decoded (← d.firstDecoded decode)
  | allDecoding => return .allDecoded (← d.allDecoded decode)
  | dropRun | dropExecute => return .dropped

/-- The answer of a fetch to what was delivered, if reading a row has no effects. -/
def Fetch.answer (decode : Row → Except DecodeError α) (d : Delivery) (fetch : Fetch) : Answer α :=
  Id.run (fetch.take decode d)

variable {ν : Type} [Writable ν]

/-- Runs a statement and takes its rows. -/
def Database.fetch (decode : Row → Except DecodeError α) (fetch : Fetch) (statement : Expr ν)
    (db : Database) : Run (Answer α) :=
  match fetch with
  | .dropRun => (db.run statement).drop.map fun _ => .dropped
  | .dropExecute => (db.execute statement).drop.map fun _ => .dropped
  | .execute => (db.execute statement).wait.map fun d => fetch.answer decode d
  | fetch => (db.run statement).wait.map fun d => fetch.answer decode d

end BoundSql
