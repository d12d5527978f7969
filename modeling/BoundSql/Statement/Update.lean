import BoundSql.Writer

/-! The clauses of a statement that changes rows. -/

namespace BoundSql

/-- The clauses of an `UPDATE`, over any type of expressions. -/
structure Update (ε : Type) where
  table : ε
  values : List ε := []
  predicate : Option ε := none
  returning : List ε := []

namespace Update

/-- The statement, once its expressions are writers. -/
def writer (s : Update Writer) : Writer :=
  .text "UPDATE " ++
  s.table ++
  .text " SET " ++
  .commaSeparated s.values ++
  .optional " WHERE " s.predicate ++
  .returning s.returning

/-- The same clauses over other expressions. -/
def map {ε δ : Type} (f : ε → δ) (s : Update ε) : Update δ where
  table := f s.table
  values := s.values.map f
  predicate := s.predicate.map f
  returning := s.returning.map f

end Update

end BoundSql
