import BoundSql.Expr

/-! A statement that adds rows, filled in by calls. Rows and returned columns gather over all calls;
the columns are those of the last call that names any. -/

namespace BoundSql

namespace Insert

variable {ν : Type}

/-- Nothing to insert yet. -/
def ofTable (name : String) : Insert (Expr ν) := { table := .identifier name }

def setColumns (s : Insert (Expr ν)) (names : List String) : Insert (Expr ν) :=
  { s with columns := Expr.namedColumns names }

def addRow (s : Insert (Expr ν)) (row : List Value) : Insert (Expr ν) :=
  { s with values := s.values ++ [row.map .bind] }

def addReturning (s : Insert (Expr ν)) (names : List String) : Insert (Expr ν) :=
  { s with returning := s.returning ++ Expr.namedColumns names }

end Insert

/-- One call that fills in an insertion. -/
inductive InsertCall where
  | columns (names : List String)
  | row (values : List Value)
  | returning (names : List String)

/-- What a call makes of an insertion. -/
def InsertCall.apply {ν : Type} : InsertCall → Insert (Expr ν) → Insert (Expr ν)
  | columns names, s => s.setColumns names
  | row values, s => s.addRow values
  | returning names, s => s.addReturning names

/-- The insertion into a table that a sequence of calls fills in. -/
def Insert.build {ν : Type} (table : String) (calls : List InsertCall) : Insert (Expr ν) :=
  calls.foldl (fun s call => call.apply s) (ofTable table)

end BoundSql
