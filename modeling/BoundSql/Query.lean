import BoundSql.Dialect
import BoundSql.Value

/-! A query is text with placeholders, and the values that the placeholders stand for in their
order. It is also what a statement is written into, piece after piece. -/

namespace BoundSql

/-- The value of the nth placeholder of the text is the nth bind. -/
structure Query where
  sql : String := ""
  binds : List Value := []
  deriving DecidableEq, Inhabited

/-- The front of a text, of as many characters as a number of bytes holds. -/
def front (bytes : Nat) : List Char → List Char
  | [] => []
  | c :: r => if c.utf8Size ≤ bytes then c :: front (bytes - c.utf8Size) r else []

theorem front_append (s t : List Char) : front (String.ofList s).utf8ByteSize (s ++ t) = s := by
  induction s with
  | nil =>
    cases t with
    | nil => rfl
    | cons c t => exact if_neg (Nat.not_le.2 c.utf8Size_pos)
  | cons c s ih =>
    have hsize : (String.ofList (c :: s)).utf8ByteSize =
        c.utf8Size + (String.ofList s).utf8ByteSize := by
      rw [String.ofList_cons, String.utf8ByteSize_append, String.utf8ByteSize_singleton]
    rw [hsize, List.cons_append, front, if_pos (Nat.le_add_right _ _), Nat.add_sub_cancel_left, ih]

namespace Query

/-- The number of values so far. -/
def bindCount (q : Query) : Nat := q.binds.length

/-- Adds text. -/
def write (q : Query) (text : String) : Query := { q with sql := q.sql ++ text }

/-- Takes back all the text behind a number of bytes. -/
def cut (q : Query) (bytes : Nat) : Query :=
  { q with sql := String.ofList (front bytes q.sql.toList) }

/-- Records a value and adds its placeholder. -/
def bind (q : Query) (d : Dialect) (v : Value) : Query :=
  { sql := q.sql ++ d.placeholder (q.binds.length + 1), binds := q.binds ++ [v] }

@[simp] theorem sql_write (q : Query) (text : String) : (q.write text).sql = q.sql ++ text := rfl
@[simp] theorem binds_write (q : Query) (text : String) : (q.write text).binds = q.binds := rfl

@[simp] theorem sql_bind (q : Query) (d : Dialect) (v : Value) :
    (q.bind d v).sql = q.sql ++ d.placeholder (q.binds.length + 1) := rfl

@[simp] theorem binds_bind (q : Query) (d : Dialect) (v : Value) :
    (q.bind d v).binds = q.binds ++ [v] := rfl

@[simp] theorem binds_cut (q : Query) (bytes : Nat) : (q.cut bytes).binds = q.binds := rfl

/-- Text that was added is taken back as a whole. -/
theorem cut_of_append {q : Query} {s t : String} (h : q.sql = s ++ t) :
    q.cut s.utf8ByteSize = ⟨s, q.binds⟩ := by
  have hfront := front_append s.toList t.toList
  rw [String.ofList_toList] at hfront
  rw [cut, h, String.toList_append, hfront, String.ofList_toList]

end Query

end BoundSql
