import BoundSql.Writer

/-! The clauses of a statement that adds rows. Rows may have any lengths. -/

namespace BoundSql

/-- The clauses of an `INSERT`, over any type of expressions. -/
structure Insert (ε : Type) where
  table : ε
  columns : List ε := []
  values : List (List ε) := []
  returning : List ε := []

namespace Insert

/-- The column names between parentheses. -/
def columnsWriter : List Writer → Writer
  | [] => .nothing
  | w :: ws => .text " " ++ .parenthesized (.commaSeparated (w :: ws))

/-- One row of values between parentheses, which may be empty. -/
def rowWriter (row : List Writer) : Writer := .parenthesized (.commaSeparated row)

/-- The statement, once its expressions are writers. -/
def writer (s : Insert Writer) : Writer :=
  .text "INSERT INTO " ++
  s.table ++
  columnsWriter s.columns ++
  .clause " VALUES " (s.values.map rowWriter) ++
  .returning s.returning

/-- The same clauses over other expressions. -/
def map {ε δ : Type} (f : ε → δ) (s : Insert ε) : Insert δ where
  table := f s.table
  columns := s.columns.map f
  values := s.values.map (List.map f)
  returning := s.returning.map f

end Insert

end BoundSql
