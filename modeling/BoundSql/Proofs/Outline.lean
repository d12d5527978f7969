import Mathlib.Data.List.Basic
import BoundSql.Expr.Writer
import BoundSql.Proofs.Added
import BoundSql.Proofs.Builder.Select

/-! The outline of a query that is built of names, paths, comparisons and numbers only: what was asked
for, clause by clause. The calls determine the outline, and the outline the text and the values. -/

namespace BoundSql

/-- A column at a path, compared with a value. -/
structure Comparison where
  path : String
  op : Operator
  value : Value

/-- Comparisons joined by connectives; the first has nothing before it. -/
structure Chain where
  first : Comparison
  rest : List (Connective × Comparison)

/-- What is asked for in each clause. -/
structure Outline where
  columns : List String
  distinct : Bool
  tables : List String
  conditions : Option Chain
  groups : List String
  orderings : List (String × Direction)
  limit : Option UInt64
  offset : Option UInt64

namespace SelectCall

variable {ν : Type}

/-- A call that gives no expression and asks for no join, group condition or lock. -/
def Plain : SelectCall ν → Prop
  | column _ | columns _ | distinct | table _ | restrict ⟨_, .column _ _ _⟩ | group _
  | ordering _ _ | limit _ | offset _ => True
  | _ => False

def columnNames : SelectCall ν → List String
  | column name => [name]
  | columns names => names
  | _ => []

def tableNames : SelectCall ν → List String
  | table name => [name]
  | _ => []

def comparison? : SelectCall ν → Option (Connective × Comparison)
  | restrict ⟨connective, .column path op value⟩ => some (connective, ⟨path, op, value⟩)
  | _ => none

def groupPaths : SelectCall ν → List String
  | group path => [path]
  | _ => []

def orderingPairs : SelectCall ν → List (String × Direction)
  | ordering path direction => [(path, direction)]
  | _ => []

end SelectCall

/-- The chain of some comparisons, if there are any. The connective of the first is lost. -/
def Chain.of : List (Connective × Comparison) → Option Chain
  | [] => none
  | (_, k) :: rest => some ⟨k, rest⟩

/-- The outline that a sequence of calls fills in. -/
def Outline.of {ν : Type} (calls : List (SelectCall ν)) : Outline where
  columns := calls.flatMap SelectCall.columnNames
  distinct := calls.any SelectCall.isDistinct
  tables := calls.flatMap SelectCall.tableNames
  conditions := Chain.of (calls.filterMap SelectCall.comparison?)
  groups := calls.flatMap SelectCall.groupPaths
  orderings := calls.flatMap SelectCall.orderingPairs
  limit := (calls.filterMap SelectCall.limit?).getLast?
  offset := (calls.filterMap SelectCall.offset?).getLast?

/-! The tree of an outline. -/

def Comparison.expr {ν : Type} (k : Comparison) : Expr ν := .comparison (.ofPath k.path) k.op k.value

def Chain.expr {ν : Type} (c : Chain) : Expr ν :=
  c.rest.foldl (fun e (connective, k) => .binary e connective.operator k.expr) c.first.expr

def Outline.select {ν : Type} (o : Outline) : Select (Expr ν) where
  columns := o.columns.map .ofSelected
  tables := o.tables.map .identifier
  distinct := o.distinct
  predicate := o.conditions.map Chain.expr
  groupBy := o.groups.map .ofPath
  orderBy := o.orderings.map fun (path, direction) => .order (.ofPath path) direction
  limit := o.limit
  offset := o.offset

section Build

variable {ν : Type}

def Comparison.restriction (ck : Connective × Comparison) : Restriction ν :=
  ⟨ck.1, .column ck.2.path ck.2.op ck.2.value⟩

/-- What a plain call adds to each clause. -/
structure SelectCall.Items (c : SelectCall ν) : Prop where
  columns : c.columnItems = c.columnNames.map .ofSelected
  tables : c.tableItems = c.tableNames.map .identifier
  joins : c.joinItems = []
  conditions : c.restriction? = c.comparison?.map Comparison.restriction
  groups : c.groupItems = c.groupPaths.map .ofPath
  having : c.having? = none
  orderings : c.orderItems = c.orderingPairs.map fun (p, d) => .order (.ofPath p) d
  lock : c.lock? = none

theorem SelectCall.Plain.items {c : SelectCall ν} (h : c.Plain) : c.Items := by
  cases c with
  | restrict r =>
    obtain ⟨connective, path | e⟩ := r
    · exact ⟨rfl, rfl, rfl, rfl, rfl, rfl, rfl, rfl⟩
    · exact h.elim
  | columnExpr | tableExpr | join | joinExpr | having | lock => exact h.elim
  | _ => exact ⟨rfl, rfl, rfl, rfl, rfl, rfl, rfl, rfl⟩

theorem Restriction.chain_restriction (e : Expr ν) (rest : List (Connective × Comparison)) :
    chain (some e) (rest.map Comparison.restriction) =
      some (rest.foldl (fun e (c, k) => .binary e c.operator k.expr) e) := by
  induction rest generalizing e with
  | nil => rfl
  | cons ck rest ih => exact ih _

theorem Chain.predicate_of (ks : List (Connective × Comparison)) :
    Restriction.chain none (ks.map Comparison.restriction) =
      (Chain.of ks).map (expr (ν := ν)) := by
  cases ks with
  | nil => rfl
  | cons ck rest => exact Restriction.chain_restriction _ rest

theorem flatMap_eq_map {α β γ : Type} {f : α → List β} {g : α → List γ} {h : γ → β}
    {as : List α} (hf : ∀ a ∈ as, f a = (g a).map h) : as.flatMap f = (as.flatMap g).map h := by
  rw [List.map_flatMap]
  exact List.flatMap_congr hf

theorem filterMap_eq_map {α β γ : Type} {f : α → Option β} {g : α → Option γ} {h : γ → β}
    {as : List α} (hf : ∀ a ∈ as, f a = (g a).map h) :
    as.filterMap f = (as.filterMap g).map h := by
  rw [List.map_filterMap]
  exact List.filterMap_congr hf

/-- Plain calls fill in the query of their outline and nothing else. -/
theorem Select.build_eq_select {calls : List (SelectCall ν)} (h : ∀ c ∈ calls, c.Plain) :
    build calls = (Outline.of calls).select := by
  have hcolumns := (build_columns calls).trans (flatMap_eq_map fun c hc => (h c hc).items.columns)
  have htables := (build_tables calls).trans (flatMap_eq_map fun c hc => (h c hc).items.tables)
  have hjoins : (build calls).joins = [] :=
    (build_joins calls).trans (List.flatMap_eq_nil_iff.2 fun c hc => (h c hc).items.joins)
  have hpredicate := (build_predicate calls).trans <| (congrArg (Restriction.chain none)
    (filterMap_eq_map fun c hc => (h c hc).items.conditions)).trans (Chain.predicate_of _)
  have hgroups := (build_groupBy calls).trans (flatMap_eq_map fun c hc => (h c hc).items.groups)
  have hhaving : (build calls).having = none := (build_having calls).trans <| by
    rw [List.filterMap_eq_nil_iff.2 fun c hc => (h c hc).items.having]; rfl
  have horders := (build_orderBy calls).trans
    (flatMap_eq_map fun c hc => (h c hc).items.orderings)
  have hlocking : (build calls).locking = none := (build_locking calls).trans <| by
    rw [List.filterMap_eq_nil_iff.2 fun c hc => (h c hc).items.lock]; rfl
  have hdistinct := build_distinct calls
  have hlimit := build_limit calls
  have hoffset := build_offset calls
  generalize build calls = s at *
  cases s
  simp only at *
  subst_vars
  rfl

end Build

/-! The text of an outline. -/

def nameText (quoted : String → String) (n : String) : List Char :=
  if n = "*" then ['*'] else (quoted n).toList

def pathText (quoted : String → String) (path : String) : List Char :=
  match Split.first? '.' path with
  | some (t, n) => (quoted t).toList ++ '.' :: nameText quoted n
  | none => nameText quoted path

def orderingText (quoted : String → String) (o : String × Direction) : List Char :=
  pathText quoted o.1 ++ " ".toList ++ o.2.text.toList

def countText (n : UInt64) : List Char := (toString n.toNat).toList

/-- The text of a comparison whose placeholder is at a position. -/
def Comparison.text (d : Dialect) (position : Nat) (k : Comparison) : List Char :=
  pathText d.quoted k.path ++ " ".toList ++ k.op.text.toList ++ " ".toList ++
    (d.placeholder position).toList

/-- The text of a comparison behind others. -/
def Comparison.restText (d : Dialect) (ck : (Connective × Comparison) × Nat) : List Char :=
  " ".toList ++ ck.1.1.operator.text.toList ++ " ".toList ++ ck.1.2.text d ck.2

def Chain.text (d : Dialect) (c : Chain) : List Char :=
  c.first.text d 1 ++ (c.rest.zipIdx 2).flatMap (Comparison.restText d)

def Chain.values (c : Chain) : List Value := c.first.value :: c.rest.map fun (_, k) => k.value

namespace Outline

/-- The text before the conditions. -/
def opening (d : Dialect) (o : Outline) : List Char :=
  "SELECT ".toList ++ (if o.distinct then "DISTINCT ".toList else []) ++
  commas (o.columns.map (pathText d.quoted)) ++
  clauseText " FROM " (o.tables.map fun n => (d.quoted n).toList)

/-- The text behind the conditions. -/
def closing (d : Dialect) (o : Outline) : List Char :=
  clauseText " GROUP BY " (o.groups.map (pathText d.quoted)) ++
  clauseText " ORDER BY " (o.orderings.map (orderingText d.quoted)) ++
  optionText " LIMIT " (o.limit.map countText) ++
  optionText " OFFSET " (o.offset.map countText)

def text (d : Dialect) (o : Outline) : List Char :=
  o.opening d ++ optionText " WHERE " (o.conditions.map (Chain.text d)) ++ o.closing d

def values (o : Outline) : List Value := (o.conditions.map Chain.values).getD []

end Outline

section Write

open Writer

variable {d : Dialect}

theorem Expr.adds_columnWriter (n : String) : (columnWriter n).Adds d (nameText d.quoted n) := by
  unfold columnWriter nameText
  split
  · exact adds_text "*"
  · exact adds_name n

theorem Expr.adds_ofPath (path : String) :
    (ofPath path : Expr Empty).writer.Adds d (pathText d.quoted path) := by
  unfold ofPath pathText
  rcases Split.first? '.' path with _ | ⟨t, n⟩
  · exact adds_columnWriter path
  · have := ((adds_name t).append (adds_text ".")).append (adds_columnWriter (d := d) n)
    rw [List.append_assoc] at this
    exact this

theorem Expr.adds_ofSelected (name : String) :
    (ofSelected name : Expr Empty).writer.Adds d (pathText d.quoted name) := by
  unfold ofSelected
  split
  · subst name; exact adds_text "*"
  · exact adds_ofPath name

/-- A comparison adds its text and its value. -/
theorem Comparison.writer_expr (k : Comparison) (q : Query) :
    (k.expr : Expr Empty).writer d q =
      ⟨q.sql ++ String.ofList (k.text d (q.binds.length + 1)), q.binds ++ [k.value]⟩ := by
  have h := ((Expr.adds_ofPath k.path).append (adds_text " ")).append (adds_text k.op.text)
    |>.append (adds_text " ") (d := d) q
  show (((Expr.ofPath k.path : Expr Empty).writer ++ Writer.text " " ++ .text k.op.text ++
    .text " ") d q).bind d k.value = _
  rw [h]
  simp [Comparison.text, Query.bind, Query.write, String.ofList_append, String.append_assoc]

/-- Comparisons behind an expression add their texts and values, one after another. -/
theorem Comparison.writer_foldl (rest : List (Connective × Comparison)) (e : Expr Empty)
    (q r : Query) (h : e.writer d q = r) :
    (rest.foldl (fun e (c, k) => .binary e c.operator k.expr) e).writer d q =
      ⟨r.sql ++ String.ofList ((rest.zipIdx (r.binds.length + 1)).flatMap (restText d)),
        r.binds ++ rest.map fun (_, k) => k.value⟩ := by
  induction rest generalizing e r with
  | nil => simp [h]
  | cons ck rest ih =>
    obtain ⟨c, k⟩ := ck
    have step : (Expr.binary e c.operator k.expr).writer d q =
        ⟨r.sql ++ String.ofList (restText d ((c, k), r.binds.length + 1)), r.binds ++ [k.value]⟩ := by
      have hk := k.writer_expr (d := d) (((r.write " ").write c.operator.text).write " ")
      show (k.expr : Expr Empty).writer d
        ((((e.writer d q).write " ").write c.operator.text).write " ") = _
      rw [h, hk]
      simp [restText, Query.write, String.append_assoc]
    rw [List.foldl_cons, ih _ _ step, List.zipIdx_cons, List.flatMap_cons]
    simp [String.append_assoc]

theorem Chain.writer_expr (c : Chain) {q : Query} (hq : q.binds = []) :
    (c.expr : Expr Empty).writer d q = ⟨q.sql ++ String.ofList (c.text d), c.values⟩ := by
  have := Comparison.writer_foldl c.rest _ q _ (c.first.writer_expr (d := d) q)
  rw [Chain.expr, this]
  simp [hq, Chain.text, Chain.values, String.append_assoc]

namespace Outline

/-- The clauses of an outline as writers. -/
def writers (o : Outline) : Select Writer := (o.select : Select (Expr Empty)).map Expr.writer

theorem adds_beforeConditions (o : Outline) : o.writers.beforeConditions.Adds d (o.opening d) := by
  have hdistinct : (o.writers.segment .distinct).writer.Adds d
      (if o.distinct then "DISTINCT ".toList else []) := by
    show Adds (if o.distinct then .text "DISTINCT " else nothing) d _
    split
    · exact adds_text _
    · exact adds_nothing
  have hcolumns : (o.writers.segment .columns).writer.Adds d
      (commas (o.columns.map (pathText d.quoted))) := by
    show Adds (commaSeparated ((o.columns.map Expr.ofSelected).map Expr.writer)) d _
    rw [List.map_map]
    exact adds_commaSeparated Expr.adds_ofSelected _
  have htables : (o.writers.segment .tables).writer.Adds d
      (clauseText " FROM " (o.tables.map fun n => (d.quoted n).toList)) := by
    show Adds (clause " FROM " ((o.tables.map Expr.identifier).map Expr.writer)) d _
    rw [List.map_map]
    exact adds_clause adds_name _ _
  have hwriter : o.writers.beforeConditions = .text "SELECT " ++
      (o.writers.segment .distinct).writer ++ (o.writers.segment .columns).writer ++
      (o.writers.segment .tables).writer := rfl
  rw [hwriter]
  exact (((adds_text _).append hdistinct).append hcolumns).append htables

theorem adds_afterConditions (o : Outline) : o.writers.afterConditions.Adds d (o.closing d) := by
  have hordering (i : String × Direction) :
      (Expr.order (.ofPath i.1) i.2 : Expr Empty).writer.Adds d (orderingText d.quoted i) :=
    ((Expr.adds_ofPath i.1).append (adds_text " ")).append (adds_text i.2.text)
  have hgroups : (o.writers.segment .groupBy).writer.Adds d
      (clauseText " GROUP BY " (o.groups.map (pathText d.quoted))) := by
    show Adds (clause " GROUP BY " ((o.groups.map Expr.ofPath).map Expr.writer)) d _
    rw [List.map_map]
    exact adds_clause Expr.adds_ofPath _ _
  have horderings : (o.writers.segment .orderBy).writer.Adds d
      (clauseText " ORDER BY " (o.orderings.map (orderingText d.quoted))) := by
    show Adds (clause " ORDER BY " ((o.orderings.map fun i => .order (.ofPath i.1) i.2).map
      Expr.writer)) d _
    rw [List.map_map]
    exact adds_clause hordering _ _
  have hcount (keyword : String) (n : Option UInt64) :
      (Segment.count keyword n).writer.Adds d (optionText keyword (n.map countText)) :=
    adds_optional (fun _ => adds_text _) keyword n
  have hwriter : o.writers.afterConditions =
      (o.writers.segment .groupBy).writer ++ (o.writers.segment .orderBy).writer ++
      (Segment.count " LIMIT " o.limit).writer ++ (Segment.count " OFFSET " o.offset).writer := rfl
  rw [hwriter]
  exact ((hgroups.append horderings).append (hcount _ _)).append (hcount _ _)

theorem writer_conditions (o : Outline) {q : Query} (hq : q.binds = []) :
    Writer.optional " WHERE " (o.conditions.map fun c => (c.expr : Expr Empty).writer) d q =
      ⟨q.sql ++ String.ofList (optionText " WHERE " (o.conditions.map (Chain.text d))),
        o.values⟩ := by
  cases hc : o.conditions with
  | none =>
    show q = _
    rw [values, hc, Option.map_none, Option.map_none, optionText, String.ofList_nil,
      String.append_empty, Option.getD_none, ← hq]
  | some c =>
    have h := c.writer_expr (d := d) (q := q.write " WHERE ") hq
    show (c.expr : Expr Empty).writer d (q.write " WHERE ") = _
    rw [h, values, hc, Option.map_some, Option.map_some, optionText, String.ofList_append,
      String.ofList_toList, ← String.append_assoc]
    rfl

theorem writer_select (o : Outline) (q : Query) :
    (Expr.select o.select : Expr Empty).writer d q =
      o.writers.afterConditions d (Writer.optional " WHERE "
        (o.conditions.map fun c => (c.expr : Expr Empty).writer) d
          (o.writers.beforeConditions d q)) := by
  show (Expr.selectWriters o.select).writer d q = _
  rw [Expr.selectWriters_eq_map, Select.writer_eq_around_conditions]
  simp only [Select.map, select, Option.map_map]
  rfl

/-- What a query of an outline says is the text of the outline and its values. -/
theorem query_select (o : Outline) :
    Query.of d (.select o.select : Expr Empty) = ⟨String.ofList (o.text d), o.values⟩ := by
  have h := o.writer_select (d := d) {}
  rw [o.adds_beforeConditions, o.writer_conditions rfl, o.adds_afterConditions] at h
  rw [text, String.ofList_append, String.ofList_append]
  exact h.trans (by rw [Query.write, Query.write, String.empty_append])

end Outline

end Write

end BoundSql
