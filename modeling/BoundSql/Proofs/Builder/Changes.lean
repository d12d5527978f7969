import BoundSql.Builder.Insert
import BoundSql.Proofs.Builder.Filtering
import BoundSql.Proofs.Outline

/-! What is left of the calls that fill in a statement that changes rows. Values to set, rows and
returned columns gather in the order of their calls; of the calls that name columns the last counts. -/

namespace BoundSql

variable {ν : Type}

def UpdateCall.assignment? : UpdateCall ν → Option (String × Value)
  | assign column value => some (column, value)
  | _ => none

def UpdateCall.returned : UpdateCall ν → List String
  | returning names => names
  | _ => []

def DeleteCall.returned : DeleteCall ν → List String
  | returning names => names
  | _ => []

namespace InsertCall

def columns? : InsertCall → Option (List String)
  | columns names => some names
  | _ => none

def row? : InsertCall → Option (List Value)
  | row values => some values
  | _ => none

def returned : InsertCall → List String
  | returning names => names
  | _ => []

end InsertCall

def Expr.assignment (a : String × Value) : Expr ν := .comparison (.column none a.1) .equal a.2

namespace Restriction

/-- The comparison that a condition is, unless it is given as an expression. -/
def comparison? : Restriction ν → Option (Connective × Comparison)
  | ⟨connective, .column path op value⟩ => some (connective, ⟨path, op, value⟩)
  | _ => none

def Plain (r : Restriction ν) : Prop := r.comparison?.isSome

theorem Plain.eq_restriction {r : Restriction ν} (h : r.Plain) :
    some r = r.comparison?.map Comparison.restriction := by
  obtain ⟨connective, path | e⟩ := r
  · rfl
  · cases h

theorem joined_of_plain {rs : List (Restriction ν)} (h : ∀ r ∈ rs, r.Plain) :
    joined rs = (Chain.of (rs.filterMap comparison?)).map Chain.expr := by
  have hrs := filterMap_eq_map fun r hr => (h r hr).eq_restriction
  rw [List.filterMap_some] at hrs
  rw [← chain_none]
  exact (congrArg (chain none) hrs).trans (Chain.predicate_of _)

end Restriction

theorem flatMap_toList_map {γ α β : Type} (item? : γ → Option α) (f : α → β) (calls : List γ) :
    calls.flatMap (fun c => ((item? c).map f).toList) = (calls.filterMap item?).map f := by
  rw [List.map_filterMap, List.filterMap_eq_flatMap_toList]

theorem flatMap_namedColumns {γ : Type} (names : γ → List String) (calls : List γ) :
    calls.flatMap (fun c => Expr.namedColumns (ν := ν) (names c)) =
      Expr.namedColumns (calls.flatMap names) := by
  simp only [Expr.namedColumns, List.map_flatMap]

theorem Update.build_eq (table : String) {calls : List (UpdateCall ν)}
    (h : ∀ r ∈ calls.filterMap UpdateCall.restriction?, r.Plain) :
    build table calls =
      { table := .identifier table
        values := (calls.filterMap UpdateCall.assignment?).map .assignment
        predicate := (Chain.of ((calls.filterMap UpdateCall.restriction?).filterMap
          Restriction.comparison?)).map Chain.expr
        returning := Expr.namedColumns (calls.flatMap UpdateCall.returned) } := by
  have htable : (build table calls).table = .identifier table :=
    foldl_keeps Update.table (fun _ call => by cases call <;> rfl) _ calls
  have hvalues : (build table calls).values =
      (calls.filterMap UpdateCall.assignment?).map .assignment := by
    rw [← flatMap_toList_map]
    refine foldl_gather Update.values (fun _ call => ?_) _ calls
    cases call with
    | assign => rfl
    | _ => exact (List.append_nil _).symm
  have hreturning : (build table calls).returning =
      Expr.namedColumns (calls.flatMap UpdateCall.returned) := by
    rw [← flatMap_namedColumns]
    refine foldl_gather Update.returning (fun _ call => ?_) _ calls
    cases call with
    | returning => rfl
    | _ => exact (List.append_nil _).symm
  have hpredicate : (build table calls).predicate =
      (Chain.of ((calls.filterMap UpdateCall.restriction?).filterMap
          Restriction.comparison?)).map Chain.expr := by
    rw [build_conditions]
    exact Restriction.joined_of_plain h
  rw [← htable, ← hvalues, ← hreturning, ← hpredicate]

theorem Delete.build_eq (table : String) {calls : List (DeleteCall ν)}
    (h : ∀ r ∈ calls.filterMap DeleteCall.restriction?, r.Plain) :
    build table calls =
      { table := .identifier table
        predicate := (Chain.of ((calls.filterMap DeleteCall.restriction?).filterMap
          Restriction.comparison?)).map Chain.expr
        returning := Expr.namedColumns (calls.flatMap DeleteCall.returned) } := by
  have htable : (build table calls).table = .identifier table :=
    foldl_keeps Delete.table (fun _ call => by cases call <;> rfl) _ calls
  have hreturning : (build table calls).returning =
      Expr.namedColumns (calls.flatMap DeleteCall.returned) := by
    rw [← flatMap_namedColumns]
    refine foldl_gather Delete.returning (fun _ call => ?_) _ calls
    cases call with
    | returning => rfl
    | _ => exact (List.append_nil _).symm
  have hpredicate : (build table calls).predicate =
      (Chain.of ((calls.filterMap DeleteCall.restriction?).filterMap
          Restriction.comparison?)).map Chain.expr := by
    rw [build_conditions]
    exact Restriction.joined_of_plain h
  rw [← htable, ← hreturning, ← hpredicate]

/-- The columns of the last call that names any; none if there is no such call. -/
def InsertCall.lastColumns (calls : List InsertCall) : List String :=
  (calls.filterMap columns?).getLast?.getD []

theorem Insert.build_eq (table : String) (calls : List InsertCall) :
    (build table calls : Insert (Expr ν)) =
      { table := .identifier table
        columns := Expr.namedColumns (InsertCall.lastColumns calls)
        values := (calls.filterMap InsertCall.row?).map (List.map .bind)
        returning := Expr.namedColumns (calls.flatMap InsertCall.returned) } := by
  have htable : (build table calls : Insert (Expr ν)).table = .identifier table :=
    foldl_keeps Insert.table (fun _ call => by cases call <;> rfl) _ calls
  have hcolumns : (build table calls : Insert (Expr ν)).columns =
      Expr.namedColumns (InsertCall.lastColumns calls) := by
    have step (s : Insert (Expr ν)) (call : InsertCall) : (call.apply s).columns =
        (call.columns?.map Expr.namedColumns).getD s.columns := by cases call <;> rfl
    rw [build, foldl_last Insert.columns step, InsertCall.lastColumns, ← List.map_filterMap, List.getLast?_map]
    cases (calls.filterMap InsertCall.columns?).getLast? <;> rfl
  have hvalues : (build table calls : Insert (Expr ν)).values =
      (calls.filterMap InsertCall.row?).map (List.map .bind) := by
    rw [← flatMap_toList_map]
    refine foldl_gather Insert.values (fun _ call => ?_) _ calls
    cases call with
    | row => rfl
    | _ => exact (List.append_nil _).symm
  have hreturning : (build table calls : Insert (Expr ν)).returning =
      Expr.namedColumns (calls.flatMap InsertCall.returned) := by
    rw [← flatMap_namedColumns]
    refine foldl_gather Insert.returning (fun _ call => ?_) _ calls
    cases call with
    | returning => rfl
    | _ => exact (List.append_nil _).symm
  rw [← htable, ← hcolumns, ← hvalues, ← hreturning]

end BoundSql
