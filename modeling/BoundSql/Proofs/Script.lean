import BoundSql.Expr.Writer
import BoundSql.Proofs.Expr.Fold

/-! What a tree asks to be written, as data. A script is what is left of a tree once its nodes are
spelled out and no dialect has been chosen: words of the grammar, texts of the caller, names,
strings, values, and the few places where the dialect decides. Writing a tree is running its
script, so that a fact about all trees is an induction over ten kinds of scripts. -/

namespace BoundSql

/-- A text that each dialect chooses for itself. -/
inductive Wording where
  | boolean (b : Bool)
  | default
  | lock (mode : LockMode)

/-- The text that a dialect chooses; nothing for a lock that it does not have. -/
def Dialect.wording (d : Dialect) : Wording → String
  | .boolean b => d.boolText b
  | .default => d.defaultText
  | .lock mode => (d.lockText mode).getD ""

inductive Script where
  | nothing
  /-- A word or a sign of the grammar. -/
  | fixed (s : String)
  /-- A text that is written as the caller gave it. -/
  | verbatim (s : String)
  | worded (w : Wording)
  /-- A name between the quotes of the dialect. -/
  | name (s : String)
  /-- A string literal. -/
  | string (s : String)
  | bind (v : Value)
  | append (a b : Script)
  /-- What is written only where the dialect gives written rows back. -/
  | returned (a : Script)
  | spaced (a : Script)

namespace Script

instance : Append Script := ⟨append⟩

def writer : Script → Writer
  | nothing => .nothing
  | fixed s => .text s
  | verbatim s => .text s
  | worded w => .dialectText fun d => d.wording w
  | name s => .name s
  | string s => .text (Quoted.token '\'' s)
  | bind v => .bind v
  | append a b => a.writer ++ b.writer
  | returned a => .onlyIf Dialect.returning a.writer
  | spaced a => .spaced a.writer

def joined (separator : Script) : List Script → Script
  | [] => nothing
  | [s] => s
  | s :: ss => s ++ separator ++ joined separator ss

def commaSeparated (ss : List Script) : Script := joined (fixed ", ") ss

def parenthesized (s : Script) : Script := fixed "(" ++ s ++ fixed ")"

def optional (keyword : String) : Option Script → Script
  | none => nothing
  | some s => fixed keyword ++ s

def clause (keyword : String) : List Script → Script
  | [] => nothing
  | s :: ss => fixed keyword ++ commaSeparated (s :: ss)

def returning (ss : List Script) : Script := returned (clause " RETURNING " ss)

@[simp] theorem writer_nothing : nothing.writer = .nothing := rfl

@[simp] theorem writer_fixed (s : String) : (fixed s).writer = .text s := rfl

@[simp] theorem writer_append (a b : Script) : (a ++ b).writer = a.writer ++ b.writer := rfl

@[simp] theorem writer_joined (separator : Script) (ss : List Script) :
    (joined separator ss).writer = .joined separator.writer (ss.map writer) := by
  induction ss with
  | nil => rfl
  | cons s ss ih =>
    cases ss with
    | nil => rfl
    | cons t ss =>
      simp only [joined, writer_append, ih, List.map_cons, Writer.joined_cons_cons]

@[simp] theorem writer_commaSeparated (ss : List Script) :
    (commaSeparated ss).writer = .commaSeparated (ss.map writer) := writer_joined _ _

@[simp] theorem writer_parenthesized (s : Script) :
    (parenthesized s).writer = .parenthesized s.writer := rfl

@[simp] theorem writer_optional (keyword : String) (o : Option Script) :
    (optional keyword o).writer = .optional keyword (o.map writer) := by
  cases o <;> rfl

@[simp] theorem writer_clause (keyword : String) (ss : List Script) :
    (clause keyword ss).writer = .clause keyword (ss.map writer) := by
  cases ss with
  | nil => rfl
  | cons s ss => simp only [clause, writer_append, writer_commaSeparated]; rfl

@[simp] theorem writer_returning (ss : List Script) :
    (returning ss).writer = .returning (ss.map writer) := by
  rw [Writer.returning, ← writer_clause]
  rfl

end Script

/-! The grammar of statements, once more over scripts. -/

namespace Segment

def numberScript (n : UInt64) : Script := .verbatim (toString n.toNat)

/-- How a clause is spelled out, once its expressions are scripts. -/
def script : Segment Script → Script
  | flag word present => if present then .fixed word else .nothing
  | items ss => .commaSeparated ss
  | clause keyword ss => .clause keyword ss
  | joins [] => .nothing
  | joins (s :: ss) => .fixed " " ++ .joined (.fixed " ") (s :: ss)
  | optional keyword o => .optional keyword o
  | count keyword n => .optional keyword (n.map numberScript)
  | locking none => .nothing
  | locking (some s) => .spaced s

theorem writer_numberScript : Script.writer ∘ numberScript = number := rfl

theorem writer_script (g : Segment Script) : g.script.writer = (g.map Script.writer).writer := by
  cases g with
  | flag word present => cases present <;> rfl
  | joins ss => cases ss <;> simp [script, writer, map]
  | locking o => cases o <;> rfl
  | count keyword n => simp [script, writer, map, writer_numberScript]
  | _ => simp [script, writer, map]

end Segment

namespace Select

/-- Some of the clauses, one behind the other. -/
def clausesScript (s : Select Script) : List Clause → Script
  | [] => .nothing
  | c :: cs => (s.segment c).script ++ s.clausesScript cs

def script (s : Select Script) : Script := .fixed "SELECT " ++ s.clausesScript Clause.inOrder

theorem writer_clausesScript (s : Select Script) (cs : List Clause) :
    (s.clausesScript cs).writer = (s.map Script.writer).clausesWriter cs := by
  induction cs with
  | nil => rfl
  | cons c cs ih =>
    simp [clausesScript, clausesWriter, segment_map, Segment.writer_script, ih]

theorem writer_script (s : Select Script) : s.script.writer = (s.map Script.writer).writer := by
  simp [script, writer, writer_clausesScript]

end Select

namespace Insert

def columnsScript : List Script → Script
  | [] => .nothing
  | s :: ss => .fixed " " ++ .parenthesized (.commaSeparated (s :: ss))

def rowScript (row : List Script) : Script := .parenthesized (.commaSeparated row)

def script (s : Insert Script) : Script :=
  .fixed "INSERT INTO " ++
  s.table ++
  columnsScript s.columns ++
  .clause " VALUES " (s.values.map rowScript) ++
  .returning s.returning

@[simp] theorem writer_columnsScript (ss : List Script) :
    (columnsScript ss).writer = columnsWriter (ss.map Script.writer) := by
  cases ss with
  | nil => rfl
  | cons s ss => simp [columnsScript, columnsWriter]

@[simp] theorem writer_rowScript (row : List Script) :
    (rowScript row).writer = rowWriter (row.map Script.writer) := by simp [rowScript, rowWriter]

theorem writer_script (s : Insert Script) : s.script.writer = (s.map Script.writer).writer := by
  simp [script, writer, map, Function.comp_def]

end Insert

def Update.script (s : Update Script) : Script :=
  .fixed "UPDATE " ++
  s.table ++
  .fixed " SET " ++
  .commaSeparated s.values ++
  .optional " WHERE " s.predicate ++
  .returning s.returning

theorem Update.writer_script (s : Update Script) :
    s.script.writer = (s.map Script.writer).writer := by
  simp [script, writer, map]

def Delete.script (s : Delete Script) : Script :=
  .fixed "DELETE FROM " ++
  s.table ++
  .optional " WHERE " s.predicate ++
  .returning s.returning

theorem Delete.writer_script (s : Delete Script) :
    s.script.writer = (s.map Script.writer).writer := by
  simp [script, writer, map]

def Literal.script : Literal → Script
  | .all => .fixed "*"
  | .default => .worded .default
  | .null => .fixed "NULL"
  | .boolean b => .worded (.boolean b)
  | .numeric digits => .verbatim digits
  | .string s => .string s

theorem Literal.writer_script (l : Literal) : l.script.writer = l.writer := by cases l <;> rfl

namespace Expr

def columnScript (table : Option String) (n : String) : Script :=
  (match table with
    | none => .nothing
    | some t => .name t ++ .fixed ".") ++
  (if n = "*" then .fixed "*" else .name n)

/-- How each node is spelled out. -/
def spelling : Algebra Empty Script where
  raw sql := .verbatim sql
  identifier n := .name n
  column := columnScript
  aliased s n := s ++ .fixed " AS " ++ .name n
  literal l := l.script
  bind v := .bind v
  binds vs := .parenthesized (.commaSeparated (vs.map .bind))
  list items separator := .joined separator items
  group s := .parenthesized s
  binary left op right := left ++ .fixed " " ++ .fixed op.text ++ .fixed " " ++ right
  operator op := .fixed op.text
  function n args := .verbatim n ++ .parenthesized (.commaSeparated args)
  join method table condition :=
    .fixed method.text ++ .fixed " " ++ table ++ .optional " ON " condition
  order s direction := s ++ .fixed " " ++ .fixed direction.text
  lock mode := .worded (.lock mode)
  spaced s := .spaced s
  select s := s.script
  insert s := s.script
  update s := s.script
  delete s := s.script
  own := nofun

def script (e : Expr Empty) : Script := e.fold spelling

@[simp] theorem script_raw (s : String) : (raw s).script = .verbatim s := rfl

@[simp] theorem script_identifier (n : String) : (identifier n).script = .name n := rfl

@[simp] theorem script_column (t : Option String) (n : String) :
    (column t n).script = columnScript t n := rfl

@[simp] theorem script_aliased (x : Expr Empty) (n : String) :
    (aliased x n).script = x.script ++ .fixed " AS " ++ .name n := rfl

@[simp] theorem script_literal (l : Literal) : (literal l).script = l.script := rfl

@[simp] theorem script_bind (v : Value) : (bind v).script = .bind v := rfl

@[simp] theorem script_binds (vs : List Value) :
    (binds vs).script = .parenthesized (.commaSeparated (vs.map .bind)) := rfl

@[simp] theorem script_list (xs : List (Expr Empty)) (x : Expr Empty) :
    (list xs x).script = .joined x.script (xs.map script) := fold_list _ _ _

@[simp] theorem script_group (x : Expr Empty) : (group x).script = .parenthesized x.script := rfl

@[simp] theorem script_binary (x y : Expr Empty) (op : Operator) :
    (binary x op y).script =
      x.script ++ .fixed " " ++ .fixed op.text ++ .fixed " " ++ y.script := rfl

@[simp] theorem script_operator (op : Operator) : (operator op).script = .fixed op.text := rfl

@[simp] theorem script_function (n : String) (xs : List (Expr Empty)) :
    (function n xs).script =
      .verbatim n ++ .parenthesized (.commaSeparated (xs.map script)) := fold_function _ _ _

@[simp] theorem script_join (m : JoinMethod) (x : Expr Empty) (o : Option (Expr Empty)) :
    (join m x o).script =
      .fixed m.text ++ .fixed " " ++ x.script ++ .optional " ON " (o.map script) :=
  fold_join _ _ _ _

@[simp] theorem script_order (x : Expr Empty) (d : Direction) :
    (order x d).script = x.script ++ .fixed " " ++ .fixed d.text := rfl

@[simp] theorem script_lock (mode : LockMode) : (lock mode).script = .worded (.lock mode) := rfl

@[simp] theorem script_spaced (x : Expr Empty) : (spaced x).script = .spaced x.script := rfl

@[simp] theorem script_select (s : Select (Expr Empty)) :
    (select s).script = (s.map script).script := fold_select _ _

@[simp] theorem script_insert (s : Insert (Expr Empty)) :
    (insert s).script = (s.map script).script := fold_insert _ _

@[simp] theorem script_update (s : Update (Expr Empty)) :
    (update s).script = (s.map script).script := fold_update _ _

@[simp] theorem script_delete (s : Delete (Expr Empty)) :
    (delete s).script = (s.map script).script := fold_delete _ _

/-- Writing a tree is running its script. -/
theorem writer_script (e : Expr Empty) : e.script.writer = e.writer := by
  induction e using induction with
  | step e ih =>
    cases e with
    | raw | identifier | bind | operator | lock => rfl
    | own n => exact n.elim
    | literal l => exact l.writer_script
    | column t n =>
      cases t <;> by_cases h : n = "*" <;>
        simp [columnScript, writer, qualifierWriter, columnWriter, Script.writer, h]
    | binds vs => simp [writer, Function.comp_def, Script.writer]
    | aliased x n => simp [writer, Script.writer, ih x (by simp [children])]
    | group x => simp [writer, ih x (by simp [children])]
    | order x d => simp [writer, Script.writer, ih x (by simp [children])]
    | spaced x => simp [writer, Script.writer, ih x (by simp [children])]
    | binary x op y =>
      simp [writer, Script.writer, ih x (by simp [children]), ih y (by simp [children])]
    | list xs x =>
      have hxs : xs.map (fun e => e.script.writer) = xs.map writer :=
        List.map_congr_left fun e he => ih e (by simp [children, he])
      simp [writer, ih x (by simp [children]), Function.comp_def, hxs]
    | function n xs =>
      have hxs : xs.map (fun e => e.script.writer) = xs.map writer := List.map_congr_left ih
      simp [writer, Script.writer, Function.comp_def, hxs]
    | join m x o =>
      have ho : o.map (fun e => e.script.writer) = o.map writer :=
        Option.map_congr fun e he => ih e (by simp [children, Option.mem_def.1 he])
      simp [writer, Script.writer, ih x (by simp [children]), Function.comp_def, ho]
    | select s =>
      rw [script_select, Select.writer_script, Select.map_map, writer, selectWriters_eq_map]
      exact congrArg Select.writer (Select.map_congr ih)
    | insert s =>
      rw [script_insert, Insert.writer_script, Insert.map_map, writer, insertWriters_eq_map]
      exact congrArg Insert.writer (Insert.map_congr ih)
    | update s =>
      rw [script_update, Update.writer_script, Update.map_map, writer, updateWriters_eq_map]
      exact congrArg Update.writer (Update.map_congr ih)
    | delete s =>
      rw [script_delete, Delete.writer_script, Delete.map_map, writer, deleteWriters_eq_map]
      exact congrArg Delete.writer (Delete.map_congr ih)

end Expr

end BoundSql
