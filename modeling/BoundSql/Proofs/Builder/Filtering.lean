import BoundSql.Builder.Delete
import BoundSql.Builder.Update
import BoundSql.Expr.Writer
import BoundSql.Proofs.Builder.Clauses

/-! Statements with conditions, by the calls that fill them in. The conditions stand at one place of
the statement, whatever other calls they are mixed with. -/

namespace BoundSql

variable {ν : Type}

/-- The calls that fill in a statement with conditions. -/
inductive Filtering (ν : Type) where
  | select (calls : List (SelectCall ν))
  | update (table : String) (calls : List (UpdateCall ν))
  | delete (table : String) (calls : List (DeleteCall ν))

def UpdateCall.restriction? : UpdateCall ν → Option (Restriction ν)
  | restrict r => some r
  | _ => none

def DeleteCall.restriction? : DeleteCall ν → Option (Restriction ν)
  | restrict r => some r
  | _ => none

namespace Filtering

def statement : Filtering ν → Expr ν
  | select calls => .select (.build calls)
  | update table calls => .update (.build table calls)
  | delete table calls => .delete (.build table calls)

/-- The conditions in the order of their calls. -/
def restrictions : Filtering ν → List (Restriction ν)
  | select calls => calls.filterMap SelectCall.restriction?
  | update _ calls => calls.filterMap UpdateCall.restriction?
  | delete _ calls => calls.filterMap DeleteCall.restriction?

/-- The calls that add no condition. -/
def others : Filtering ν → Filtering ν
  | select calls => select (calls.filter (·.restriction?.isNone))
  | update table calls => update table (calls.filter (·.restriction?.isNone))
  | delete table calls => delete table (calls.filter (·.restriction?.isNone))

def predicate : Filtering ν → Option (Expr ν)
  | select calls => (Select.build calls).predicate
  | update table calls => (Update.build table calls).predicate
  | delete table calls => (Delete.build table calls).predicate

end Filtering

section Build

/-- Calls that chain conditions, among others that leave the conditions alone. -/
theorem foldl_conditions {σ γ : Type} {apply : γ → σ → σ} (set : Option (Expr ν) → σ → σ)
    {restriction? : γ → Option (Restriction ν)}
    (hown : ∀ call r, restriction? call = some r →
      ∀ o s, apply call (set o s) = set (some (r.join o)) s)
    (hother : ∀ call, restriction? call = none → ∀ o s, apply call (set o s) = set o (apply call s))
    (o : Option (Expr ν)) (s : σ) (calls : List γ) :
    calls.foldl (fun s call => apply call s) (set o s) =
      set (Restriction.chain o (calls.filterMap restriction?))
        ((calls.filter fun call => (restriction? call).isNone).foldl (fun s call => apply call s) s) := by
  induction calls generalizing o s with
  | nil => rfl
  | cons call calls ih =>
    rw [List.foldl_cons]
    cases hr : restriction? call with
    | none => rw [hother call hr, ih]; simp [hr]
    | some r => rw [hown call r hr, ih]; simp [hr, Restriction.chain]

theorem Select.build_conditions (calls : List (SelectCall ν)) :
    build calls = { build (calls.filter (·.restriction?.isNone)) with
      predicate := Restriction.joined (calls.filterMap SelectCall.restriction?) } := by
  rw [← Restriction.chain_none]
  refine foldl_conditions (fun o s => ({ s with predicate := o } : Select (Expr ν)))
    (fun call r h o s => ?_) (fun call h o s => ?_) none {} calls
  · cases call with
    | restrict r' => cases h; rfl
    | _ => cases h
  · cases call with
    | restrict r' => cases h
    | columns names => simp only [apply_columns]
    | _ => rfl

theorem Update.build_conditions (table : String) (calls : List (UpdateCall ν)) :
    build table calls = { build table (calls.filter (·.restriction?.isNone)) with
      predicate := Restriction.joined (calls.filterMap UpdateCall.restriction?) } := by
  rw [← Restriction.chain_none]
  refine foldl_conditions (fun o s => ({ s with predicate := o } : Update (Expr ν)))
    (fun call r h o s => ?_) (fun call h o s => ?_) none (ofTable table) calls
  · cases call with
    | restrict r' => cases h; rfl
    | _ => cases h
  · cases call with
    | restrict r' => cases h
    | _ => rfl

theorem Delete.build_conditions (table : String) (calls : List (DeleteCall ν)) :
    build table calls = { build table (calls.filter (·.restriction?.isNone)) with
      predicate := Restriction.joined (calls.filterMap DeleteCall.restriction?) } := by
  rw [← Restriction.chain_none]
  refine foldl_conditions (fun o s => ({ s with predicate := o } : Delete (Expr ν)))
    (fun call r h o s => ?_) (fun call h o s => ?_) none (ofTable table) calls
  · cases call with
    | restrict r' => cases h; rfl
    | _ => cases h
  · cases call with
    | restrict r' => cases h
    | _ => rfl

end Build

/-! What the other statements write before their conditions. -/

def Update.beforeConditions (s : Update Writer) : Writer :=
  .text "UPDATE " ++ s.table ++ .text " SET " ++ .commaSeparated s.values

def Delete.beforeConditions (s : Delete Writer) : Writer := .text "DELETE FROM " ++ s.table

namespace Filtering

theorem predicate_eq_joined (f : Filtering ν) :
    f.predicate = Restriction.joined f.restrictions := by
  cases f with
  | select calls => exact congrArg Select.predicate (Select.build_conditions calls)
  | update table calls => exact congrArg Update.predicate (Update.build_conditions table calls)
  | delete table calls => exact congrArg Delete.predicate (Delete.build_conditions table calls)

theorem restrictions_others (f : Filtering ν) : f.others.restrictions = [] := by
  cases f <;> exact List.filterMap_eq_nil_iff.2 fun call hcall => by
    simpa using (List.mem_filter.1 hcall).2

/-- The statement with other conditions. -/
def withPredicate (o : Option (Expr ν)) : Filtering ν → Expr ν
  | select calls => .select { Select.build calls with predicate := o }
  | update table calls => .update { Update.build table calls with predicate := o }
  | delete table calls => .delete { Delete.build table calls with predicate := o }

/-- The conditions and the other calls determine a statement. -/
theorem statement_eq_withPredicate (f : Filtering ν) :
    f.statement = f.others.withPredicate (Restriction.joined f.restrictions) := by
  cases f with
  | select calls => exact congrArg Expr.select (Select.build_conditions calls)
  | update table calls => exact congrArg Expr.update (Update.build_conditions table calls)
  | delete table calls => exact congrArg Expr.delete (Delete.build_conditions table calls)

variable [Writable ν]

def before : Filtering ν → Writer
  | select calls => ((Select.build calls).map Expr.writer).beforeConditions
  | update table calls => ((Update.build table calls).map Expr.writer).beforeConditions
  | delete table calls => ((Delete.build table calls).map Expr.writer).beforeConditions

def after : Filtering ν → Writer
  | select calls => ((Select.build calls).map Expr.writer).afterConditions
  | update table calls => .returning ((Update.build table calls).map Expr.writer).returning
  | delete table calls => .returning ((Delete.build table calls).map Expr.writer).returning

theorem writer_statement (f : Filtering ν) : f.statement.writer =
    f.before ++ .optional " WHERE " (f.predicate.map Expr.writer) ++ f.after := by
  cases f with
  | select calls =>
    show (Expr.selectWriters (Select.build calls)).writer = _
    rw [Expr.selectWriters_eq_map, Select.writer_eq_around_conditions]
    rfl
  | update table calls =>
    show (Expr.updateWriters (Update.build table calls)).writer = _
    rw [Expr.updateWriters_eq_map]
    rfl
  | delete table calls =>
    show (Expr.deleteWriters (Delete.build table calls)).writer = _
    rw [Expr.deleteWriters_eq_map]
    rfl

theorem before_others (f : Filtering ν) : f.others.before = f.before := by
  cases f with
  | select calls => rw [before, Select.build_conditions]; rfl
  | update table calls => rw [before, Update.build_conditions]; rfl
  | delete table calls => rw [before, Delete.build_conditions]; rfl

theorem after_others (f : Filtering ν) : f.others.after = f.after := by
  cases f with
  | select calls => rw [after, Select.build_conditions]; rfl
  | update table calls => rw [after, Update.build_conditions]; rfl
  | delete table calls => rw [after, Delete.build_conditions]; rfl

end Filtering

end BoundSql
