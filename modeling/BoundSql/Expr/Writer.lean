import BoundSql.Expr

/-! How each node of a tree is written. A tree becomes a writer by recursion on its parts, and a
statement's parts are handed to the grammar of that statement. -/

namespace BoundSql

/-- The text of a constant; a string literal is a token between single quotes. -/
def Literal.writer : Literal → Writer
  | .all => .text "*"
  | .default => .dialectText Dialect.defaultText
  | .null => .text "NULL"
  | .boolean b => .dialectText fun d => d.boolText b
  | .numeric digits => .text digits
  | .string s => .text (Quoted.token '\'' s)

namespace Expr

/-- A column name is quoted, unless it stands for all columns. -/
def columnWriter (name : String) : Writer := if name = "*" then .text "*" else .name name

/-- A table name and a point, if there is a table. -/
def qualifierWriter : Option String → Writer
  | none => .nothing
  | some table => .name table ++ .text "."

/-- The text of a locking clause; nothing if the dialect has none. -/
def lockWriter (mode : LockMode) : Writer := .dialectText fun d => (d.lockText mode).getD ""

theorem lockWriter_of_empty {d : Dialect} {mode : LockMode} (h : (d.lockText mode).getD "" = "")
    (q : Query) : lockWriter mode d q = q := by
  have : lockWriter mode d q = q.write "" := congrArg q.write h
  rw [this, Query.write, String.append_empty]

variable {ν : Type} [Writable ν]

mutual

/-- The writer of a tree. -/
def writer : Expr ν → Writer
  | raw sql => .text sql
  | identifier name => .name name
  | column table name => qualifierWriter table ++ columnWriter name
  | aliased expr name => expr.writer ++ .text " AS " ++ .name name
  | literal l => l.writer
  | bind value => .bind value
  | binds values => .parenthesized (.commaSeparated (values.map .bind))
  | list items separator => .joined separator.writer (writers items)
  | group expr => .parenthesized expr.writer
  | binary left op right => left.writer ++ .text " " ++ .text op.text ++ .text " " ++ right.writer
  | operator op => .text op.text
  | function name args => .text name ++ .parenthesized (.commaSeparated (writers args))
  | join method table condition =>
    .text method.text ++ .text " " ++ table.writer ++ .optional " ON " (optionWriter condition)
  | order expr direction => expr.writer ++ .text " " ++ .text direction.text
  | lock mode => lockWriter mode
  | spaced expr => .spaced expr.writer
  | select s => (selectWriters s).writer
  | insert s => (insertWriters s).writer
  | update s => (updateWriters s).writer
  | delete s => (deleteWriters s).writer
  | own node => Writable.writer node
termination_by structural e => e

def writers : List (Expr ν) → List Writer
  | [] => []
  | e :: es => e.writer :: writers es
termination_by structural es => es

def rowWriters : List (List (Expr ν)) → List (List Writer)
  | [] => []
  | r :: rs => writers r :: rowWriters rs
termination_by structural rs => rs

def optionWriter : Option (Expr ν) → Option Writer
  | none => none
  | some e => some e.writer
termination_by structural o => o

def selectWriters : Select (Expr ν) → Select Writer
  | ⟨columns, tables, distinct, joins, predicate, groupBy, having, orderBy, limit, offset, locking⟩ =>
    ⟨writers columns, writers tables, distinct, writers joins, optionWriter predicate,
      writers groupBy, optionWriter having, writers orderBy, limit, offset, optionWriter locking⟩
termination_by structural s => s

def insertWriters : Insert (Expr ν) → Insert Writer
  | ⟨table, columns, values, returning⟩ =>
    ⟨table.writer, writers columns, rowWriters values, writers returning⟩
termination_by structural s => s

def updateWriters : Update (Expr ν) → Update Writer
  | ⟨table, values, predicate, returning⟩ =>
    ⟨table.writer, writers values, optionWriter predicate, writers returning⟩
termination_by structural s => s

def deleteWriters : Delete (Expr ν) → Delete Writer
  | ⟨table, predicate, returning⟩ => ⟨table.writer, optionWriter predicate, writers returning⟩
termination_by structural s => s

end

@[simp] theorem writers_eq_map (es : List (Expr ν)) : writers es = es.map writer := by
  induction es with
  | nil => rfl
  | cons e es ih => simp [writers, ih]

@[simp] theorem rowWriters_eq_map (rs : List (List (Expr ν))) :
    rowWriters rs = rs.map (List.map writer) := by
  induction rs with
  | nil => rfl
  | cons r rs ih => simp [rowWriters, ih]

@[simp] theorem optionWriter_eq_map (o : Option (Expr ν)) : optionWriter o = o.map writer := by
  cases o <;> rfl

@[simp] theorem selectWriters_eq_map (s : Select (Expr ν)) : selectWriters s = s.map writer := by
  cases s; simp [selectWriters, Select.map]

@[simp] theorem insertWriters_eq_map (s : Insert (Expr ν)) : insertWriters s = s.map writer := by
  cases s; simp [insertWriters, Insert.map]

@[simp] theorem updateWriters_eq_map (s : Update (Expr ν)) : updateWriters s = s.map writer := by
  cases s; simp [updateWriters, Update.map]

@[simp] theorem deleteWriters_eq_map (s : Delete (Expr ν)) : deleteWriters s = s.map writer := by
  cases s; simp [deleteWriters, Delete.map]

instance : Writable (Expr ν) := ⟨writer⟩

end Expr

end BoundSql
