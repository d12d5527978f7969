import BoundSql.Text.Quoted

/-! What differs from one database to the next when a statement is written: the quote around names,
the placeholders, a few literals, the locking clauses, and whether rows can be returned. -/

namespace BoundSql

/-- How strongly a query locks the rows that it reads. -/
inductive LockMode where
  | update
  | share
  deriving DecidableEq

/-- The words of the locking clause that most databases share. -/
def LockMode.standardText : LockMode → String
  | .update => "FOR UPDATE"
  | .share => "FOR SHARE"

/-- The choices of one database; what is not given is the common choice. -/
structure Dialect where
  name : String
  /-- Opens and closes a name. -/
  quote : Char := '\"'
  /-- A name as it is written; if it is not given, a token between quotes. -/
  quoted : String → String := Quoted.token quote
  /-- The placeholder at a position, counted from one. -/
  placeholder : Nat → String := fun _ => "?"
  trueText : String := "TRUE"
  falseText : String := "FALSE"
  defaultText : String := "DEFAULT"
  /-- The locking clause of a mode, if the database has one. -/
  lockText : LockMode → Option String := fun mode => some mode.standardText
  /-- Whether a statement that writes can return rows. -/
  returning : Bool := false

namespace Dialect

/-- The literal for a truth value. -/
def boolText (d : Dialect) (b : Bool) : String := if b then d.trueText else d.falseText

/-- All the common choices. -/
def generic : Dialect := { name := "generic" }

/-- Numbered placeholders, and statements that return rows. -/
def postgres : Dialect :=
  { name := "postgres"
    placeholder := fun n => "$" ++ toString n
    returning := true }

/-- Names between grave accents, and its own words for a shared lock. -/
def mysql : Dialect :=
  { name := "mysql"
    quote := '\x60'
    lockText := fun
      | .update => some "FOR UPDATE"
      | .share => some "LOCK IN SHARE MODE" }

/-- No row locks, no default literal, and statements that return rows. -/
def sqlite : Dialect :=
  { name := "sqlite"
    defaultText := "NULL"
    lockText := fun _ => none
    returning := true }

end Dialect

end BoundSql
