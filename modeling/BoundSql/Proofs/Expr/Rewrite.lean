import BoundSql.Proofs.Expr.Layout

/-! Rewriting trees from the leaves up. What a node writes in a dialect depends on what the trees
below it write in that dialect and on nothing else of them, so a rule that changes the text of no
node changes the text of no tree. -/

namespace BoundSql

namespace Writer

variable {d : Dialect}

/-- Writes what another writer does in one dialect, whatever dialect is asked for. -/
def inDialect (d : Dialect) (w : Writer) : Writer := fun _ => w d

@[simp] theorem inDialect_apply (w : Writer) (d' : Dialect) (q : Query) :
    w.inDialect d d' q = w d q := rfl

theorem joined_inDialect (x : Writer) (ws : List Writer) :
    joined (x.inDialect d) (ws.map (inDialect d)) d = joined x ws d := by
  induction ws with
  | nil => rfl
  | cons w ws ih =>
    cases ws with
    | nil => rfl
    | cons v ws =>
      funext q
      simp only [List.map_cons] at ih ⊢
      simp only [joined_cons_cons, append_apply, inDialect_apply, ih]

theorem commaSeparated_inDialect (ws : List Writer) :
    commaSeparated (ws.map (inDialect d)) d = commaSeparated ws d :=
  joined_inDialect (text ", ") ws

theorem parenthesized_inDialect (ws : List Writer) :
    parenthesized (commaSeparated (ws.map (inDialect d))) d =
      parenthesized (commaSeparated ws) d := by
  funext q
  simp only [parenthesized, append_apply, commaSeparated_inDialect]

theorem optional_inDialect (keyword : String) (o : Option Writer) :
    optional keyword (o.map (inDialect d)) d = optional keyword o d := by
  cases o <;> rfl

theorem clause_inDialect (keyword : String) (ws : List Writer) :
    clause keyword (ws.map (inDialect d)) d = clause keyword ws d := by
  cases ws with
  | nil => rfl
  | cons w ws =>
    funext q
    simp only [List.map_cons, clause, append_apply, ← commaSeparated_inDialect (w :: ws)]

theorem returning_inDialect (ws : List Writer) :
    returning (ws.map (inDialect d)) d = returning ws d := by
  funext q
  simp only [returning, onlyIf, clause_inDialect]

end Writer

open Writer

variable {d : Dialect}

theorem Segment.writer_inDialect (g : Segment Writer) :
    (g.map (inDialect d)).writer d = g.writer d := by
  cases g with
  | flag | count => rfl
  | items ws => exact commaSeparated_inDialect ws
  | clause keyword ws => exact clause_inDialect keyword ws
  | joins ws =>
    cases ws with
    | nil => rfl
    | cons w ws =>
      funext q
      exact congrFun (joined_inDialect (Writer.text " ") (w :: ws)) _
  | optional keyword o => exact optional_inDialect keyword o
  | locking o => cases o <;> rfl

theorem Select.writer_inDialect (s : Select Writer) :
    (s.map (inDialect d)).writer d = s.writer d := by
  have clauses (cs : List Clause) :
      (s.map (inDialect d)).clausesWriter cs d = s.clausesWriter cs d := by
    induction cs with
    | nil => rfl
    | cons c cs ih =>
      funext q
      simp only [clausesWriter, append_apply, segment_map, Segment.writer_inDialect, ih]
  funext q
  simp only [writer, append_apply, clauses]

theorem Insert.writer_inDialect (s : Insert Writer) :
    (s.map (inDialect d)).writer d = s.writer d := by
  have columns : columnsWriter (s.columns.map (inDialect d)) d = columnsWriter s.columns d := by
    cases s.columns with
    | nil => rfl
    | cons w ws =>
      funext q
      exact congrFun (parenthesized_inDialect (w :: ws)) _
  have rows : Writer.clause " VALUES " ((s.values.map (List.map (inDialect d))).map rowWriter) d =
      Writer.clause " VALUES " (s.values.map rowWriter) d := by
    rw [← clause_inDialect, ← clause_inDialect _ (s.values.map rowWriter), List.map_map,
      List.map_map, List.map_map]
    refine congrArg (Writer.clause " VALUES " · d) (List.map_congr_left fun row _ => ?_)
    exact funext fun _ => parenthesized_inDialect row
  funext q
  simp only [writer, map, append_apply, inDialect_apply, columns, rows, returning_inDialect]

theorem Update.writer_inDialect (s : Update Writer) :
    (s.map (inDialect d)).writer d = s.writer d := by
  funext q
  simp only [writer, map, append_apply, inDialect_apply, commaSeparated_inDialect,
    optional_inDialect, returning_inDialect]

theorem Delete.writer_inDialect (s : Delete Writer) :
    (s.map (inDialect d)).writer d = s.writer d := by
  funext q
  simp only [writer, map, append_apply, inDialect_apply, optional_inDialect, returning_inDialect]

namespace Expr

variable {ν : Type}

/-- The node with other trees below it. -/
def mapChildren (g : Expr ν → Expr ν) : Expr ν → Expr ν
  | aliased x n => aliased (g x) n
  | list xs x => list (xs.map g) (g x)
  | group x => group (g x)
  | binary x op y => binary (g x) op (g y)
  | function n xs => function n (xs.map g)
  | join m x o => join m (g x) (o.map g)
  | order x direction => order (g x) direction
  | spaced x => spaced (g x)
  | select s => select (s.map g)
  | insert s => insert (s.map g)
  | update s => update (s.map g)
  | delete s => delete (s.map g)
  | e => e

theorem children_mapChildren (g : Expr ν → Expr ν) (e : Expr ν) :
    (e.mapChildren g).children = e.children.map g := by
  cases e <;>
    simp [mapChildren, children, Select.parts_map, Insert.parts_map, Update.parts_map,
      Delete.parts_map, Option.toList_map]

/-- Rewrites each node once the trees below it are rewritten. -/
def rewriting (f : Expr ν → Expr ν) : Algebra ν (Expr ν) where
  raw s := f (raw s)
  identifier n := f (identifier n)
  column t n := f (column t n)
  aliased x n := f (aliased x n)
  literal l := f (literal l)
  bind v := f (bind v)
  binds vs := f (binds vs)
  list xs x := f (list xs x)
  group x := f (group x)
  binary x op y := f (binary x op y)
  operator op := f (operator op)
  function n xs := f (function n xs)
  join m x o := f (join m x o)
  order x direction := f (order x direction)
  lock mode := f (lock mode)
  spaced x := f (spaced x)
  select s := f (select s)
  insert s := f (insert s)
  update s := f (update s)
  delete s := f (delete s)
  own n := f (own n)

def rewrite (f : Expr ν → Expr ν) (e : Expr ν) : Expr ν := e.fold (rewriting f)

theorem rewrite_eq (f : Expr ν → Expr ν) (e : Expr ν) :
    e.rewrite f = f (e.mapChildren (rewrite f)) := by
  cases e with
  | list xs x => exact fold_list _ _ _
  | function n xs => exact fold_function _ _ _
  | join m x o => exact fold_join _ _ _ _
  | select s => exact fold_select _ _
  | insert s => exact fold_insert _ _
  | update s => exact fold_update _ _
  | delete s => exact fold_delete _ _
  | _ => rfl

/-- What a rule makes of every node holds throughout the rewritten tree, if the rule adds nothing
below the node. -/
theorem throughout_rewrite {p : Expr Empty → Prop} {f : Expr Empty → Expr Empty}
    (hp : ∀ e, p (f e)) (hf : ∀ e, (f e).children ⊆ e.children) (e : Expr Empty) :
    (e.rewrite f).Throughout p := by
  induction e using induction with
  | step e ih =>
    rw [rewrite_eq]
    refine .node (hp _) fun c hc => ?_
    have hc := hf _ hc
    rw [children_mapChildren] at hc
    obtain ⟨x, hx, rfl⟩ := List.mem_map.1 hc
    exact ih x hx

/-- Trees that write the same in a dialect may stand for each other below a node. -/
theorem writer_mapChildren {g : Expr Empty → Expr Empty} {e : Expr Empty}
    (h : ∀ c ∈ e.children, (g c).writer d = c.writer d) :
    (e.mapChildren g).writer d = e.writer d := by
  -- trees that write the same in this dialect may differ in others, so both sides are held to it
  have below {c : Expr Empty} (hc : c ∈ e.children) :
      (g c).writer.inDialect d = c.writer.inDialect d := by
    funext _ q
    exact congrFun (h c hc) q
  have list (xs : List (Expr Empty)) (hxs : ∀ x ∈ xs, x ∈ e.children) :
      ((xs.map g).map writer).map (inDialect d) = (xs.map writer).map (inDialect d) := by
    rw [List.map_map, List.map_map, List.map_map]
    exact List.map_congr_left fun x hx => below (hxs x hx)
  cases e with
  | raw | identifier | column | literal | bind | binds | operator | lock => rfl
  | own n => exact n.elim
  | aliased x n =>
    funext q
    simp only [mapChildren, writer, append_apply, h x (by simp [children])]
  | group x =>
    funext q
    simp only [mapChildren, writer, parenthesized, append_apply, h x (by simp [children])]
  | order x direction =>
    funext q
    simp only [mapChildren, writer, append_apply, h x (by simp [children])]
  | spaced x =>
    funext q
    simp only [mapChildren, writer, Writer.spaced, h x (by simp [children])]
  | binary x op y =>
    funext q
    simp only [mapChildren, writer, append_apply, h x (by simp [children]),
      h y (by simp [children])]
  | list xs x =>
    rw [mapChildren, writer, writer, writers_eq_map, writers_eq_map, ← joined_inDialect,
      below (by simp [children]), list xs fun y hy => by simp [children, hy], joined_inDialect]
  | function n xs =>
    have arguments : parenthesized (commaSeparated ((xs.map g).map writer)) d =
        parenthesized (commaSeparated (xs.map writer)) d := by
      rw [← parenthesized_inDialect, list xs fun x hx => hx, parenthesized_inDialect]
    funext q
    simp only [mapChildren, writer, append_apply, writers_eq_map, arguments]
  | join m x o =>
    have condition : Writer.optional " ON " ((o.map g).map writer) d =
        Writer.optional " ON " (o.map writer) d := by
      cases o with
      | none => rfl
      | some y =>
        funext q
        simp only [Option.map_some, Writer.optional, append_apply, h y (by simp [children])]
    funext q
    simp only [mapChildren, writer, append_apply, optionWriter_eq_map, condition,
      h x (by simp [children])]
  | select s =>
    rw [mapChildren, writer, writer, selectWriters_eq_map, selectWriters_eq_map,
      ← Select.writer_inDialect, ← Select.writer_inDialect (s.map writer), Select.map_map,
      Select.map_map, Select.map_map]
    exact congrArg (Select.writer · d) (Select.map_congr fun c hc => below hc)
  | insert s =>
    rw [mapChildren, writer, writer, insertWriters_eq_map, insertWriters_eq_map,
      ← Insert.writer_inDialect, ← Insert.writer_inDialect (s.map writer), Insert.map_map,
      Insert.map_map, Insert.map_map]
    exact congrArg (Insert.writer · d) (Insert.map_congr fun c hc => below hc)
  | update s =>
    rw [mapChildren, writer, writer, updateWriters_eq_map, updateWriters_eq_map,
      ← Update.writer_inDialect, ← Update.writer_inDialect (s.map writer), Update.map_map,
      Update.map_map, Update.map_map]
    exact congrArg (Update.writer · d) (Update.map_congr fun c hc => below hc)
  | delete s =>
    rw [mapChildren, writer, writer, deleteWriters_eq_map, deleteWriters_eq_map,
      ← Delete.writer_inDialect, ← Delete.writer_inDialect (s.map writer), Delete.map_map,
      Delete.map_map, Delete.map_map]
    exact congrArg (Delete.writer · d) (Delete.map_congr fun c hc => below hc)

/-- A rule that changes the text of no node changes the text of no tree. -/
theorem writer_rewrite {f : Expr Empty → Expr Empty} (hf : ∀ e, (f e).writer d = e.writer d)
    (e : Expr Empty) : (e.rewrite f).writer d = e.writer d := by
  induction e using induction with
  | step e ih => rw [rewrite_eq, hf, writer_mapChildren ih]

end Expr

end BoundSql
