import BoundSql.Expr

/-! Conditions chained one after another. Each new one is joined to all before it by its own
connective, without parentheses; the connective of the first has nothing to join. -/

namespace BoundSql

/-- How a condition is joined to those before it. -/
inductive Connective where
  | and
  | or
  deriving DecidableEq

def Connective.operator : Connective → Operator
  | and => .and
  | or => .or

/-- A condition on rows. -/
inductive Condition (ν : Type) where
  /-- A comparison of the column at a path with a value. -/
  | column (path : String) (op : Operator) (value : Value)
  | expr (e : Expr ν)

/-- The expression of a condition. -/
def Condition.toExpr {ν : Type} : Condition ν → Expr ν
  | column path op value => .comparison (.ofPath path) op value
  | expr e => e

/-- A condition together with its connective. -/
structure Restriction (ν : Type) where
  connective : Connective
  condition : Condition ν

namespace Restriction

variable {ν : Type}

/-- The predicate after one more condition. -/
def join (r : Restriction ν) : Option (Expr ν) → Expr ν
  | none => r.condition.toExpr
  | some e => .binary e r.connective.operator r.condition.toExpr

@[simp] theorem join_none (r : Restriction ν) : r.join none = r.condition.toExpr := rfl

@[simp] theorem join_some (r : Restriction ν) (e : Expr ν) :
    r.join (some e) = .binary e r.connective.operator r.condition.toExpr := rfl

end Restriction

end BoundSql
