import BoundSql.Builder.Restriction

/-! A statement that removes rows, filled in by calls. -/

namespace BoundSql

namespace Delete

variable {ν : Type}

/-- All rows of a table. -/
def ofTable (name : String) : Delete (Expr ν) := { table := .identifier name }

def restrict (s : Delete (Expr ν)) (r : Restriction ν) : Delete (Expr ν) :=
  { s with predicate := some (r.join s.predicate) }

def addReturning (s : Delete (Expr ν)) (names : List String) : Delete (Expr ν) :=
  { s with returning := s.returning ++ Expr.namedColumns names }

end Delete

/-- One call that fills in a deletion. -/
inductive DeleteCall (ν : Type) where
  | restrict (r : Restriction ν)
  | returning (names : List String)

/-- What a call makes of a deletion. -/
def DeleteCall.apply {ν : Type} : DeleteCall ν → Delete (Expr ν) → Delete (Expr ν)
  | restrict r, s => s.restrict r
  | returning names, s => s.addReturning names

/-- The deletion from a table that a sequence of calls fills in. -/
def Delete.build {ν : Type} (table : String) (calls : List (DeleteCall ν)) : Delete (Expr ν) :=
  calls.foldl (fun s call => call.apply s) (ofTable table)

end BoundSql
