import BoundSql.Writer

/-! The clauses of a statement that removes rows. -/

namespace BoundSql

/-- The clauses of a `DELETE`, over any type of expressions. -/
structure Delete (ε : Type) where
  table : ε
  predicate : Option ε := none
  returning : List ε := []

namespace Delete

/-- The statement, once its expressions are writers. -/
def writer (s : Delete Writer) : Writer :=
  .text "DELETE FROM " ++
  s.table ++
  .optional " WHERE " s.predicate ++
  .returning s.returning

/-- The same clauses over other expressions. -/
def map {ε δ : Type} (f : ε → δ) (s : Delete ε) : Delete δ where
  table := f s.table
  predicate := s.predicate.map f
  returning := s.returning.map f

end Delete

end BoundSql
