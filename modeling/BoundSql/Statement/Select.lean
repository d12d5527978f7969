import BoundSql.Writer

/-! The clauses of a query that reads rows. They are always written in the order of the grammar,
and a clause that is not filled in leaves no trace. -/

namespace BoundSql

/-- The clauses of a query. -/
inductive Clause where
  | distinct
  | columns
  | tables
  | joins
  | predicate
  | groupBy
  | having
  | orderBy
  | limit
  | offset
  | locking
  deriving DecidableEq

namespace Clause

def beforeConditions : List Clause := [distinct, columns, tables, joins]

def afterConditions : List Clause := [groupBy, having, orderBy, limit, offset, locking]

/-- All clauses, in the order of the grammar. -/
def inOrder : List Clause := beforeConditions ++ predicate :: afterConditions

end Clause

/-- The forms that clauses take, over any type of expressions. -/
inductive Segment (ε : Type) where
  /-- A word, if it is asked for. -/
  | flag (word : String) (present : Bool)
  /-- Items with commas between them. -/
  | items (es : List ε)
  /-- A keyword and items with commas between them, unless there are none. -/
  | clause (keyword : String) (es : List ε)
  /-- Items behind one space, with one space between them. -/
  | joins (es : List ε)
  | optional (keyword : String) (e : Option ε)
  /-- A keyword and a number of rows in decimal digits. -/
  | count (keyword : String) (n : Option UInt64)
  /-- What takes its space back if the dialect has no text for it. -/
  | locking (e : Option ε)

namespace Segment

/-- A number of rows. -/
def number (n : UInt64) : Writer := .text (toString n.toNat)

/-- How a clause is written, once its expressions are writers. -/
def writer : Segment Writer → Writer
  | flag word present => if present then .text word else .nothing
  | items ws => .commaSeparated ws
  | clause keyword ws => .clause keyword ws
  | joins [] => .nothing
  | joins (w :: ws) => .text " " ++ .joined (.text " ") (w :: ws)
  | optional keyword o => .optional keyword o
  | count keyword n => .optional keyword (n.map number)
  | locking none => .nothing
  | locking (some w) => .spaced w

end Segment

/-- The clauses of a `SELECT`, over any type of expressions. -/
structure Select (ε : Type) where
  columns : List ε := []
  tables : List ε := []
  distinct : Bool := false
  joins : List ε := []
  predicate : Option ε := none
  groupBy : List ε := []
  having : Option ε := none
  orderBy : List ε := []
  limit : Option UInt64 := none
  offset : Option UInt64 := none
  locking : Option ε := none

namespace Select

/-- The form of each clause, filled in. -/
def segment {ε : Type} (s : Select ε) : Clause → Segment ε
  | .distinct => .flag "DISTINCT " s.distinct
  | .columns => .items s.columns
  | .tables => .clause " FROM " s.tables
  | .joins => .joins s.joins
  | .predicate => .optional " WHERE " s.predicate
  | .groupBy => .clause " GROUP BY " s.groupBy
  | .having => .optional " HAVING " s.having
  | .orderBy => .clause " ORDER BY " s.orderBy
  | .limit => .count " LIMIT " s.limit
  | .offset => .count " OFFSET " s.offset
  | .locking => .locking s.locking

/-- Some of the clauses, one behind the other. -/
def clausesWriter (s : Select Writer) : List Clause → Writer
  | [] => .nothing
  | c :: cs => (s.segment c).writer ++ s.clausesWriter cs

/-- The statement, once its expressions are writers. -/
def writer (s : Select Writer) : Writer := .text "SELECT " ++ s.clausesWriter Clause.inOrder

/-- The same clauses over other expressions. -/
def map {ε δ : Type} (f : ε → δ) (s : Select ε) : Select δ where
  columns := s.columns.map f
  tables := s.tables.map f
  distinct := s.distinct
  joins := s.joins.map f
  predicate := s.predicate.map f
  groupBy := s.groupBy.map f
  having := s.having.map f
  orderBy := s.orderBy.map f
  limit := s.limit
  offset := s.offset
  locking := s.locking.map f

end Select

end BoundSql
