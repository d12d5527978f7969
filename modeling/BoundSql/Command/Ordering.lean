import BoundSql.Operator
import BoundSql.Text.Split

/-! Orderings as they are written on a command line: a column path, perhaps with a colon and a
direction. The last colon counts, and all others belong to the path. -/

namespace BoundSql.Command

/-- Reads an ordering; the direction may be in any letter case. -/
def readOrdering (s : String) : Except String (String × Direction) :=
  match Split.last? ':' s with
  | none => .ok (s, .ascending)
  | some (column, direction) =>
    let lower := String.ofList (direction.toList.map Char.toLower)
    if lower = "asc" then .ok (column, .ascending)
    else if lower = "desc" then .ok (column, .descending)
    else .error ("unknown direction '" ++ lower ++ "', expected asc or desc")

end BoundSql.Command
