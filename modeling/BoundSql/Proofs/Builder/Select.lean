import BoundSql.Builder.Select
import BoundSql.Proofs.Builder.Calls

/-! What each clause of a built query owes to each call. A collection gathers the items of the calls
in their order, of a choice the last call counts, and conditions are chained one after another. -/

namespace BoundSql

variable {ν α : Type}

namespace SelectCall

/-- The items that a call adds to the columns. -/
def columnItems : SelectCall ν → List (Expr ν)
  | column name => [.ofSelected name]
  | columns names => names.map .ofSelected
  | columnExpr e => [e]
  | _ => []

def tableItems : SelectCall ν → List (Expr ν)
  | table name => [.identifier name]
  | tableExpr e => [e]
  | _ => []

def joinItems : SelectCall ν → List (Expr ν)
  | join name method condition => [.join method (.identifier name) (some condition)]
  | joinExpr e => [e]
  | _ => []

def groupItems : SelectCall ν → List (Expr ν)
  | group path => [.ofPath path]
  | _ => []

def orderItems : SelectCall ν → List (Expr ν)
  | ordering path direction => [.order (.ofPath path) direction]
  | _ => []

def isDistinct : SelectCall ν → Bool
  | distinct => true
  | _ => false

/-- The condition that a call chains to those before. -/
def restriction? : SelectCall ν → Option (Restriction ν)
  | restrict r => some r
  | _ => none

def having? : SelectCall ν → Option (Expr ν)
  | having e => some e
  | _ => none

def limit? : SelectCall ν → Option UInt64
  | limit n => some n
  | _ => none

def offset? : SelectCall ν → Option UInt64
  | offset n => some n
  | _ => none

def lock? : SelectCall ν → Option (Expr ν)
  | lock mode => some (.lock mode)
  | _ => none

end SelectCall

/-- The predicate after some conditions, given the one before. -/
def Restriction.chain (o : Option (Expr ν)) (rs : List (Restriction ν)) : Option (Expr ν) :=
  rs.foldl (fun o r => some (r.join o)) o

namespace Select

theorem addColumns_eq (s : Select (Expr ν)) (names : List String) :
    s.addColumns names = { s with columns := s.columns ++ names.map .ofSelected } := by
  induction names generalizing s with
  | nil => simp [addColumns]
  | cons name names ih =>
    have := ih (s.addColumn name)
    simp only [addColumns, List.foldl_cons] at this ⊢
    rw [this]
    simp [addColumn]

theorem apply_columns (s : Select (Expr ν)) (names : List String) :
    (SelectCall.columns names).apply s = { s with columns := s.columns ++ names.map .ofSelected } :=
  addColumns_eq s names

/-- A clause to which each call adds its items. -/
theorem build_gather {field : Select (Expr ν) → List α} {items : SelectCall ν → List α}
    (h : ∀ s call, field (call.apply s) = field s ++ items call) (h₀ : field {} = [])
    (calls : List (SelectCall ν)) : field (build calls) = calls.flatMap items := by
  rw [build, foldl_gather field h, h₀, List.nil_append]

/-- A clause that each call with a choice of its own overwrites. -/
theorem build_last {field : Select (Expr ν) → Option α} {item : SelectCall ν → Option α}
    (h : ∀ s call, field (call.apply s) = (item call).or (field s)) (h₀ : field {} = none)
    (calls : List (SelectCall ν)) : field (build calls) = (calls.filterMap item).getLast? := by
  have step (s : Select (Expr ν)) (call : SelectCall ν) :
      field (call.apply s) = ((item call).map some).getD (field s) := by
    rw [h]
    cases item call <;> rfl
  rw [build, foldl_last field step, h₀, ← List.map_filterMap, List.getLast?_map]
  cases (calls.filterMap item).getLast? <;> rfl

theorem build_columns (calls : List (SelectCall ν)) :
    (build calls).columns = calls.flatMap SelectCall.columnItems := by
  refine build_gather (fun s call => ?_) rfl calls
  cases call with
  | columns names => rw [apply_columns]; rfl
  | column | columnExpr => rfl
  | _ => exact (List.append_nil _).symm

theorem build_tables (calls : List (SelectCall ν)) :
    (build calls).tables = calls.flatMap SelectCall.tableItems := by
  refine build_gather (fun s call => ?_) rfl calls
  cases call with
  | columns names => rw [apply_columns]; exact (List.append_nil _).symm
  | table | tableExpr => rfl
  | _ => exact (List.append_nil _).symm

theorem build_joins (calls : List (SelectCall ν)) :
    (build calls).joins = calls.flatMap SelectCall.joinItems := by
  refine build_gather (fun s call => ?_) rfl calls
  cases call with
  | columns names => rw [apply_columns]; exact (List.append_nil _).symm
  | join | joinExpr => rfl
  | _ => exact (List.append_nil _).symm

theorem build_groupBy (calls : List (SelectCall ν)) :
    (build calls).groupBy = calls.flatMap SelectCall.groupItems := by
  refine build_gather (fun s call => ?_) rfl calls
  cases call with
  | columns names => rw [apply_columns]; exact (List.append_nil _).symm
  | group => rfl
  | _ => exact (List.append_nil _).symm

theorem build_orderBy (calls : List (SelectCall ν)) :
    (build calls).orderBy = calls.flatMap SelectCall.orderItems := by
  refine build_gather (fun s call => ?_) rfl calls
  cases call with
  | columns names => rw [apply_columns]; exact (List.append_nil _).symm
  | ordering => rfl
  | _ => exact (List.append_nil _).symm

theorem build_having (calls : List (SelectCall ν)) :
    (build calls).having = (calls.filterMap SelectCall.having?).getLast? := by
  refine build_last (fun s call => ?_) rfl calls
  cases call with
  | columns names => rw [apply_columns]; rfl
  | _ => rfl

theorem build_limit (calls : List (SelectCall ν)) :
    (build calls).limit = (calls.filterMap SelectCall.limit?).getLast? := by
  refine build_last (fun s call => ?_) rfl calls
  cases call with
  | columns names => rw [apply_columns]; rfl
  | _ => rfl

theorem build_offset (calls : List (SelectCall ν)) :
    (build calls).offset = (calls.filterMap SelectCall.offset?).getLast? := by
  refine build_last (fun s call => ?_) rfl calls
  cases call with
  | columns names => rw [apply_columns]; rfl
  | _ => rfl

theorem build_locking (calls : List (SelectCall ν)) :
    (build calls).locking = (calls.filterMap SelectCall.lock?).getLast? := by
  refine build_last (fun s call => ?_) rfl calls
  cases call with
  | columns names => rw [apply_columns]; rfl
  | _ => rfl

theorem build_distinct (calls : List (SelectCall ν)) :
    (build calls).distinct = calls.any SelectCall.isDistinct := by
  have step (s : Select (Expr ν)) (call : SelectCall ν) :
      (call.apply s).distinct = (s.distinct || call.isDistinct) := by
    cases call with
    | columns names => rw [apply_columns]; exact (Bool.or_false _).symm
    | distinct => exact (Bool.or_true _).symm
    | _ => exact (Bool.or_false _).symm
  have run (s : Select (Expr ν)) : (calls.foldl (fun s call => call.apply s) s).distinct =
      (s.distinct || calls.any SelectCall.isDistinct) := by
    induction calls generalizing s with
    | nil => simp
    | cons call calls ih => rw [List.foldl_cons, ih, step, List.any_cons, Bool.or_assoc]
  rw [build, run, Bool.false_or]

theorem build_predicate (calls : List (SelectCall ν)) :
    (build calls).predicate = Restriction.chain none (calls.filterMap SelectCall.restriction?) := by
  have step (s : Select (Expr ν)) (call : SelectCall ν) :
      (call.apply s).predicate = Restriction.chain s.predicate call.restriction?.toList := by
    cases call with
    | columns names => rw [apply_columns]; rfl
    | _ => rfl
  have run (s : Select (Expr ν)) : (calls.foldl (fun s call => call.apply s) s).predicate =
      Restriction.chain s.predicate (calls.filterMap SelectCall.restriction?) := by
    induction calls generalizing s with
    | nil => rfl
    | cons call calls ih =>
      rw [List.foldl_cons, ih, step]
      cases h : call.restriction? <;> simp [Restriction.chain, h]
  rw [build, run]

end Select

/-! What a query writes before its conditions, and what behind them. -/

namespace Select

def beforeConditions (s : Select Writer) : Writer :=
  .text "SELECT " ++ s.clausesWriter Clause.beforeConditions

def afterConditions (s : Select Writer) : Writer := s.clausesWriter Clause.afterConditions

theorem clausesWriter_append (s : Select Writer) (cs ds : List Clause) :
    s.clausesWriter (cs ++ ds) = s.clausesWriter cs ++ s.clausesWriter ds := by
  induction cs with
  | nil => rfl
  | cons c cs ih => rw [List.cons_append, clausesWriter, ih, clausesWriter, Writer.append_assoc]

theorem writer_eq_around_conditions (s : Select Writer) :
    s.writer = s.beforeConditions ++ .optional " WHERE " s.predicate ++ s.afterConditions := by
  rw [writer, Clause.inOrder, clausesWriter_append, clausesWriter, ← Writer.append_assoc,
    ← Writer.append_assoc]
  rfl

end Select

end BoundSql
