import BoundSql.Proofs.Script

/-! The leaves of a tree in the order in which they are written: the clauses of a statement in the
order of its grammar, the separator of a list again between each two items, and the columns to give
back only where the dialect can. -/

namespace BoundSql

/-- What is noted of the names, of the string literals and of the values of a tree. -/
structure Visitor (β : Type) where
  name : String → List β := fun _ => []
  string : String → List β := fun _ => []
  value : Value → List β := fun _ => []

variable {β : Type}

theorem nil_intercalate (xs : List (List β)) : [].intercalate xs = xs.flatten := by
  induction xs with
  | nil => rfl
  | cons x xs ih => cases xs <;> simp_all [List.intercalate_cons_cons]

namespace Expr

/-- The order of the notes on a node. -/
def visiting (v : Visitor β) (returning : Bool) : Algebra Empty (List β) where
  raw _ := []
  identifier n := v.name n
  column table n := table.elim [] v.name ++ if n = "*" then [] else v.name n
  aliased xs n := xs ++ v.name n
  literal
    | .string s => v.string s
    | _ => []
  bind x := v.value x
  binds xs := xs.flatMap v.value
  list items separator := separator.intercalate items
  group xs := xs
  binary left _ right := left ++ right
  operator _ := []
  function _ args := args.flatten
  join _ table condition := table ++ condition.getD []
  order xs _ := xs
  lock _ := []
  spaced xs := xs
  select s := s.columns.flatten ++ s.tables.flatten ++ s.joins.flatten ++ s.predicate.getD [] ++
    s.groupBy.flatten ++ s.having.getD [] ++ s.orderBy.flatten ++ s.locking.getD []
  insert s := s.table ++ s.columns.flatten ++ s.values.flatten.flatten ++
    if returning then s.returning.flatten else []
  update s := s.table ++ s.values.flatten ++ s.predicate.getD [] ++
    if returning then s.returning.flatten else []
  delete s := s.table ++ s.predicate.getD [] ++ if returning then s.returning.flatten else []
  own := nofun

def visit (v : Visitor β) (returning : Bool) (e : Expr Empty) : List β :=
  e.fold (visiting v returning)

/-- The values of a tree in the order of its bind nodes. -/
def values (returning : Bool) (e : Expr Empty) : List Value :=
  e.visit { value := fun x => [x] } returning

/-- The names and string literals of a tree in their order; the star that stands for all columns is
no name. -/
def names (returning : Bool) (e : Expr Empty) : List String :=
  e.visit { name := fun n => [n], string := fun s => [s] } returning

end Expr

namespace Script

variable (v : Visitor β) (returning : Bool)

def visit : Script → List β
  | name s => v.name s
  | string s => v.string s
  | bind x => v.value x
  | append a b => a.visit ++ b.visit
  | returned a => if returning then a.visit else []
  | spaced a => a.visit
  | _ => []

@[simp] theorem visit_append (a b : Script) :
    (a ++ b).visit v returning = a.visit v returning ++ b.visit v returning := rfl

@[simp] theorem visit_fixed (s : String) : (fixed s).visit v returning = [] := rfl

@[simp] theorem visit_verbatim (s : String) : (verbatim s).visit v returning = [] := rfl

@[simp] theorem visit_nothing : nothing.visit v returning = [] := rfl

@[simp] theorem visit_joined (separator : Script) (ss : List Script) :
    (joined separator ss).visit v returning =
      (separator.visit v returning).intercalate (ss.map (visit v returning)) := by
  induction ss with
  | nil => rfl
  | cons s ss ih =>
    cases ss with
    | nil => simp [joined]
    | cons t ss => simp [joined, ih, List.intercalate_cons_cons]

@[simp] theorem visit_commaSeparated (ss : List Script) :
    (commaSeparated ss).visit v returning = (ss.map (visit v returning)).flatten := by
  rw [commaSeparated, visit_joined, visit_fixed, nil_intercalate]

@[simp] theorem visit_parenthesized (s : Script) :
    (parenthesized s).visit v returning = s.visit v returning := by simp [parenthesized]

@[simp] theorem visit_optional (keyword : String) (o : Option Script) :
    (optional keyword o).visit v returning = (o.map (visit v returning)).getD [] := by
  cases o <;> simp [optional]

@[simp] theorem visit_clause (keyword : String) (ss : List Script) :
    (clause keyword ss).visit v returning = (ss.map (visit v returning)).flatten := by
  cases ss <;> simp [clause]

@[simp] theorem visit_returning (ss : List Script) :
    (Script.returning ss).visit v returning =
      if returning then (ss.map (visit v returning)).flatten else [] := by
  simp [Script.returning, visit]

end Script

variable (v : Visitor β) (returning : Bool)

theorem Segment.visit_script (g : Segment Script) :
    g.script.visit v returning = (g.parts.map (Script.visit v returning)).flatten := by
  cases g with
  | flag word present => cases present <;> rfl
  | joins ss => cases ss <;> simp [script, parts, nil_intercalate]
  | optional keyword o => cases o <;> simp [script, parts]
  | count keyword n => cases n <;> rfl
  | locking o => cases o <;> simp [script, parts, Script.visit]
  | _ => simp [script, parts]

@[simp] theorem Insert.visit_columnsScript (ss : List Script) :
    (columnsScript ss).visit v returning = (ss.map (Script.visit v returning)).flatten := by
  cases ss <;> simp [columnsScript]

theorem flatten_toList (o : Option (List β)) : o.toList.flatten = o.getD [] := by
  cases o <;> simp

theorem Expr.visiting_select (s : Select (List β)) :
    (visiting v returning).select s = s.parts.flatten := by
  simp only [visiting, Select.parts, List.flatten_append, flatten_toList]

theorem Select.visit_clausesScript (s : Select Script) (cs : List Clause) :
    (s.clausesScript cs).visit v returning =
      ((cs.flatMap fun c => (s.segment c).parts).map (Script.visit v returning)).flatten := by
  induction cs with
  | nil => rfl
  | cons c cs ih => simp [clausesScript, Segment.visit_script, ih]

theorem Select.visit_script (s : Select Script) :
    s.script.visit v returning =
      (Expr.visiting v returning).select (s.map (Script.visit v returning)) := by
  rw [Expr.visiting_select, parts_map, parts_eq_flatMap, ← visit_clausesScript]
  rfl

theorem Insert.visit_script (s : Insert Script) :
    s.script.visit v returning =
      (Expr.visiting v returning).insert (s.map (Script.visit v returning)) := by
  simp [script, Expr.visiting, map, Function.comp_def, rowScript, List.flatten_flatten]

theorem Update.visit_script (s : Update Script) :
    s.script.visit v returning =
      (Expr.visiting v returning).update (s.map (Script.visit v returning)) := by
  simp [script, Expr.visiting, map]

theorem Delete.visit_script (s : Delete Script) :
    s.script.visit v returning =
      (Expr.visiting v returning).delete (s.map (Script.visit v returning)) := by
  simp [script, Expr.visiting, map]

namespace Expr

/-- A tree and its script are visited in one order. -/
theorem visit_script (e : Expr Empty) : e.script.visit v returning = e.visit v returning := by
  refine fold_fusion (h := Script.visit v returning) ?_ e
  exact {
    column := fun t n => by
      cases t <;> by_cases h : n = "*" <;>
        simp [spelling, columnScript, visiting, Script.visit, h]
    aliased := fun x n => by simp [spelling, visiting, Script.visit]
    literal := fun l => by cases l <;> rfl
    binds := fun vs => by
      simp [spelling, visiting, Function.comp_def, Script.visit, List.flatMap_def]
    list := fun xs x => by simp [spelling, visiting]
    group := fun x => by simp [spelling, visiting]
    binary := fun x op y => by simp [spelling, visiting]
    function := fun n xs => by simp [spelling, visiting]
    join := fun m x o => by simp [spelling, visiting]
    order := fun x d => by simp [spelling, visiting]
    select := Select.visit_script v returning
    insert := Insert.visit_script v returning
    update := Update.visit_script v returning
    delete := Delete.visit_script v returning
    own := nofun }

end Expr

end BoundSql
