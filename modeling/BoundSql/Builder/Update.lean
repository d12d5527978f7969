import BoundSql.Builder.Restriction

/-! A statement that changes rows, filled in by calls. Assignments come before conditions in the
statement, however the calls are mixed. -/

namespace BoundSql

namespace Update

variable {ν : Type}

/-- Nothing to change yet. -/
def ofTable (name : String) : Update (Expr ν) := { table := .identifier name }

/-- Gives a column, by its bare name, a new value. -/
def assign (s : Update (Expr ν)) (column : String) (value : Value) : Update (Expr ν) :=
  { s with values := s.values ++ [.comparison (.column none column) .equal value] }

def restrict (s : Update (Expr ν)) (r : Restriction ν) : Update (Expr ν) :=
  { s with predicate := some (r.join s.predicate) }

def addReturning (s : Update (Expr ν)) (names : List String) : Update (Expr ν) :=
  { s with returning := s.returning ++ Expr.namedColumns names }

end Update

/-- One call that fills in an update. -/
inductive UpdateCall (ν : Type) where
  | assign (column : String) (value : Value)
  | restrict (r : Restriction ν)
  | returning (names : List String)

/-- What a call makes of an update. -/
def UpdateCall.apply {ν : Type} : UpdateCall ν → Update (Expr ν) → Update (Expr ν)
  | assign column value, s => s.assign column value
  | restrict r, s => s.restrict r
  | returning names, s => s.addReturning names

/-- The update of a table that a sequence of calls fills in. -/
def Update.build {ν : Type} (table : String) (calls : List (UpdateCall ν)) : Update (Expr ν) :=
  calls.foldl (fun s call => call.apply s) (ofTable table)

end BoundSql
