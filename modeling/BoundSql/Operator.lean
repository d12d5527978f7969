/-! Binary operators and the words or signs that stand for them. -/

namespace BoundSql

/-- What joins two expressions to one. -/
inductive Operator where
  | equal
  | notEqual
  | greater
  | greaterOrEqual
  | less
  | lessOrEqual
  | like
  | notLike
  | among
  | notAmong
  | is
  | isNot
  | and
  | or
  | add
  | subtract
  | multiply
  | divide
  | modulo
  | concatenate
  deriving DecidableEq

/-- The operator in a statement. -/
def Operator.text : Operator → String
  | equal => "="
  | notEqual => "<>"
  | greater => ">"
  | greaterOrEqual => ">="
  | less => "<"
  | lessOrEqual => "<="
  | like => "LIKE"
  | notLike => "NOT LIKE"
  | among => "IN"
  | notAmong => "NOT IN"
  | is => "IS"
  | isNot => "IS NOT"
  | and => "AND"
  | or => "OR"
  | add => "+"
  | subtract => "-"
  | multiply => "*"
  | divide => "/"
  | modulo => "%"
  | concatenate => "||"

/-- The way a table is joined to those before it. -/
inductive JoinMethod where
  | inner
  | left
  | right
  | full
  | cross
  deriving DecidableEq

def JoinMethod.text : JoinMethod → String
  | inner => "INNER JOIN"
  | left => "LEFT JOIN"
  | right => "RIGHT JOIN"
  | full => "FULL JOIN"
  | cross => "CROSS JOIN"

/-- The direction of an ordering. -/
inductive Direction where
  | ascending
  | descending
  deriving DecidableEq, Inhabited

def Direction.text : Direction → String
  | ascending => "ASC"
  | descending => "DESC"

end BoundSql
