import BoundSql.Builder.Restriction

/-! A query that reads rows, filled in by calls. Collections keep the items of all calls in the
order of the calls, and of what can be said once the last call counts. -/

namespace BoundSql

namespace Select

variable {ν : Type}

/-- Adds a column by its path; a lone star stands for all columns. -/
def addColumn (s : Select (Expr ν)) (name : String) : Select (Expr ν) :=
  { s with columns := s.columns ++ [.ofSelected name] }

def addColumns (s : Select (Expr ν)) (names : List String) : Select (Expr ν) :=
  names.foldl addColumn s

def addColumnExpr (s : Select (Expr ν)) (e : Expr ν) : Select (Expr ν) :=
  { s with columns := s.columns ++ [e] }

def makeDistinct (s : Select (Expr ν)) : Select (Expr ν) := { s with distinct := true }

def addTableExpr (s : Select (Expr ν)) (e : Expr ν) : Select (Expr ν) :=
  { s with tables := s.tables ++ [e] }

/-- Adds a table by its name, which is not taken apart. -/
def addTable (s : Select (Expr ν)) (name : String) : Select (Expr ν) :=
  s.addTableExpr (.identifier name)

def addJoinExpr (s : Select (Expr ν)) (e : Expr ν) : Select (Expr ν) :=
  { s with joins := s.joins ++ [e] }

/-- Joins a table by its name, on a condition. -/
def addJoin (s : Select (Expr ν)) (table : String) (method : JoinMethod) (condition : Expr ν) :
    Select (Expr ν) :=
  s.addJoinExpr (.join method (.identifier table) (some condition))

def restrict (s : Select (Expr ν)) (r : Restriction ν) : Select (Expr ν) :=
  { s with predicate := some (r.join s.predicate) }

def addGroup (s : Select (Expr ν)) (path : String) : Select (Expr ν) :=
  { s with groupBy := s.groupBy ++ [.ofPath path] }

def setHaving (s : Select (Expr ν)) (e : Expr ν) : Select (Expr ν) := { s with having := some e }

def addOrdering (s : Select (Expr ν)) (path : String) (direction : Direction) : Select (Expr ν) :=
  { s with orderBy := s.orderBy ++ [.order (.ofPath path) direction] }

def setLimit (s : Select (Expr ν)) (n : UInt64) : Select (Expr ν) := { s with limit := some n }

def setOffset (s : Select (Expr ν)) (n : UInt64) : Select (Expr ν) := { s with offset := some n }

def setLock (s : Select (Expr ν)) (mode : LockMode) : Select (Expr ν) :=
  { s with locking := some (.lock mode) }

end Select

/-- One call that fills in a query. -/
inductive SelectCall (ν : Type) where
  | column (name : String)
  | columns (names : List String)
  | columnExpr (e : Expr ν)
  | distinct
  | table (name : String)
  | tableExpr (e : Expr ν)
  | join (table : String) (method : JoinMethod) (condition : Expr ν)
  | joinExpr (e : Expr ν)
  | restrict (r : Restriction ν)
  | group (path : String)
  | having (e : Expr ν)
  | ordering (path : String) (direction : Direction)
  | limit (n : UInt64)
  | offset (n : UInt64)
  | lock (mode : LockMode)

/-- What a call makes of a query. -/
def SelectCall.apply {ν : Type} : SelectCall ν → Select (Expr ν) → Select (Expr ν)
  | column name, s => s.addColumn name
  | columns names, s => s.addColumns names
  | columnExpr e, s => s.addColumnExpr e
  | distinct, s => s.makeDistinct
  | table name, s => s.addTable name
  | tableExpr e, s => s.addTableExpr e
  | join name method condition, s => s.addJoin name method condition
  | joinExpr e, s => s.addJoinExpr e
  | restrict r, s => s.restrict r
  | group path, s => s.addGroup path
  | having e, s => s.setHaving e
  | ordering path direction, s => s.addOrdering path direction
  | limit n, s => s.setLimit n
  | offset n, s => s.setOffset n
  | lock mode, s => s.setLock mode

/-- The query that a sequence of calls fills in. -/
def Select.build {ν : Type} (calls : List (SelectCall ν)) : Select (Expr ν) :=
  calls.foldl (fun s call => call.apply s) {}

end BoundSql
