import BoundSql.Builder.Select
import BoundSql.Builder.Insert
import BoundSql.Builder.Update
import BoundSql.Builder.Delete
import BoundSql.Proofs.Expr.Slots
import BoundSql.Proofs.Template

/-! Values stay out of the text. Two trees of one shape, written behind equal texts and equally many
values, give equal texts, and each of their values comes from the same place of both trees. The same
holds after every call to a builder. -/

namespace BoundSql

/-- Two queries with the same text and equally many values. -/
structure Query.Alike (q r : Query) : Prop where
  sql : q.sql = r.sql
  length : q.binds.length = r.binds.length

namespace Query.Alike

variable {q r t : Query}

theorem refl (q : Query) : q.Alike q := ⟨rfl, rfl⟩

theorem symm (h : q.Alike r) : r.Alike q := ⟨h.sql.symm, h.length.symm⟩

theorem trans (h : q.Alike r) (g : r.Alike t) : q.Alike t :=
  ⟨h.sql.trans g.sql, h.length.trans g.length⟩

theorem write (h : q.Alike r) (s : String) : (q.write s).Alike (r.write s) :=
  ⟨congrArg (· ++ s) h.sql, h.length⟩

/-- The placeholder depends on the number of the values before only. -/
theorem bind (h : q.Alike r) (d : Dialect) (v w : Value) : (q.bind d v).Alike (r.bind d w) :=
  ⟨by rw [sql_bind, sql_bind, h.sql, h.length], by simp [h.length]⟩

theorem cut (h : q.Alike r) (bytes : Nat) : (q.cut bytes).Alike (r.cut bytes) :=
  ⟨congrArg (fun s : String => String.ofList (front bytes s.toList)) h.sql, h.length⟩

end Query.Alike

/-- A script and the one without values write the same text. -/
theorem Script.alike_forgetValues (s : Script) (d : Dialect) {q r : Query} (h : q.Alike r) :
    (s.writer d q).Alike ((s.relabel .forgetValues).writer d r) := by
  induction s generalizing q r with
  | nothing => exact h
  | fixed | verbatim | worded | name | string => exact h.write _
  | bind v => exact h.bind d v .null
  | append a b iha ihb => exact ihb (iha h)
  | returned a ih =>
    by_cases hr : d.returning = true <;> simp only [relabel, writer, Writer.onlyIf, hr]
    · exact ih h
    · exact h
  | spaced a ih =>
    have hw := ih (h.write " ")
    simp only [relabel, writer, Writer.spaced, ← hw.sql, ← h.sql]
    -- both sides take the space back, or neither does
    split
    · exact hw.cut _
    · exact hw

namespace Expr

theorem writer_alike {e₁ e₂ : Expr Empty} {q₁ q₂ : Query}
    (he : e₁.relabel .forgetValues = e₂.relabel .forgetValues) (hq : q₁.Alike q₂) (d : Dialect) :
    (e₁.writer d q₁).Alike (e₂.writer d q₂) := by
  have h₁ := e₁.script.alike_forgetValues d hq
  have h₂ := e₂.script.alike_forgetValues d (.refl q₂)
  rw [← script_relabel Relabelling.forgetValues_starless, writer_script, writer_script] at h₁ h₂
  rw [← he] at h₂
  exact h₁.trans h₂.symm

theorem slotOrder_eq {e₁ e₂ : Expr Empty}
    (he : e₁.relabel .forgetValues = e₂.relabel .forgetValues) (returning : Bool) :
    e₁.slotOrder returning = e₂.slotOrder returning := by
  rw [slotOrder, ← fold_relabel .forgetValues, he, fold_relabel, slotOrder]

theorem length_slots (e : Expr Empty) (returning : Bool) :
    e.slots.length = (e.fold (numbering returning)).count := (reads_slots returning e).1.symm

/-- The values are read from the places. -/
theorem map_slotOrder (e : Expr Empty) (returning : Bool) :
    (e.slotOrder returning).map (e.slots[·]?) = (e.values returning).map some := by
  simpa [slotOrder] using (reads_slots returning e).2 [] []

theorem getElem?_values {e : Expr Empty} {returning : Bool} {k : Nat}
    (hk : k < (e.values returning).length) :
    ∃ i, (e.slotOrder returning)[k]? = some i ∧ (e.values returning)[k]? = e.slots[i]? := by
  have h := congrArg (·[k]?) (e.map_slotOrder returning)
  simp only [List.getElem?_map, List.getElem?_eq_getElem hk, Option.map_some] at h
  obtain ⟨i, hi, hv⟩ := Option.map_eq_some_iff.1 h
  exact ⟨i, hi, by rw [hv, List.getElem?_eq_getElem hk]⟩

@[simp] theorem relabel_column (t : Option String) (n : String) :
    (column t n : Expr Empty).relabel .forgetValues = column t n := by
  have ht : t.map Relabelling.forgetValues.name = t := Option.map_id_apply
  have hn : (if n = "*" then "*" else Relabelling.forgetValues.name n) = n := by
    split <;> simp_all
  show column (t.map Relabelling.forgetValues.name)
    (if n = "*" then "*" else Relabelling.forgetValues.name n) = column t n
  rw [ht, hn]

@[simp] theorem relabel_ofPath (path : String) :
    (ofPath path : Expr Empty).relabel .forgetValues = ofPath path := by
  unfold ofPath
  split <;> exact relabel_column _ _

@[simp] theorem relabel_ofSelected (name : String) :
    (ofSelected name : Expr Empty).relabel .forgetValues = ofSelected name := by
  unfold ofSelected
  split
  · rfl
  · exact relabel_ofPath name

@[simp] theorem map_namedColumns (names : List String) :
    (namedColumns names : List (Expr Empty)).map (relabel .forgetValues) = namedColumns names := by
  simp [namedColumns, Function.comp_def]

end Expr

/-- A condition with a value that says nothing. -/
def Condition.forgetValues : Condition Empty → Condition Empty
  | column path op _ => column path op .null
  | expr e => expr (e.relabel .forgetValues)

@[simp] theorem Condition.relabel_toExpr (c : Condition Empty) :
    c.toExpr.relabel .forgetValues = c.forgetValues.toExpr := by
  cases c <;> simp [toExpr, forgetValues, Expr.comparison]

def Restriction.forgetValues (r : Restriction Empty) : Restriction Empty :=
  { r with condition := r.condition.forgetValues }

@[simp] theorem Restriction.relabel_join (r : Restriction Empty) (o : Option (Expr Empty)) :
    (r.join o).relabel .forgetValues =
      r.forgetValues.join (o.map (Expr.relabel .forgetValues)) := by
  cases o <;> simp [join, forgetValues]

/-- A call without its values. -/
def SelectCall.forgetValues : SelectCall Empty → SelectCall Empty
  | columnExpr e => columnExpr (e.relabel .forgetValues)
  | tableExpr e => tableExpr (e.relabel .forgetValues)
  | join name method condition => join name method (condition.relabel .forgetValues)
  | joinExpr e => joinExpr (e.relabel .forgetValues)
  | restrict r => restrict r.forgetValues
  | having e => having (e.relabel .forgetValues)
  | call => call

def InsertCall.forgetValues : InsertCall → InsertCall
  | row values => row (values.map fun _ => .null)
  | call => call

def UpdateCall.forgetValues : UpdateCall Empty → UpdateCall Empty
  | assign column _ => assign column .null
  | restrict r => restrict r.forgetValues
  | call => call

def DeleteCall.forgetValues : DeleteCall Empty → DeleteCall Empty
  | restrict r => restrict r.forgetValues
  | call => call

/-- What a call without its values makes of a statement without its values. -/
theorem SelectCall.map_apply (call : SelectCall Empty) (s : Select (Expr Empty)) :
    (call.apply s).map (Expr.relabel .forgetValues) =
      call.forgetValues.apply (s.map (Expr.relabel .forgetValues)) := by
  have columns (names : List String) (s : Select (Expr Empty)) :
      (s.addColumns names).map (Expr.relabel .forgetValues) =
        (s.map (Expr.relabel .forgetValues)).addColumns names := by
    refine (List.foldl_hom (Select.map (Expr.relabel .forgetValues)) fun s name => ?_).symm
    simp [Select.addColumn, Select.map]
  cases call with
  | columns names => exact columns names s
  | column name => simp [apply, forgetValues, Select.addColumn, Select.map]
  | columnExpr e => simp [apply, forgetValues, Select.addColumnExpr, Select.map]
  | table name => simp [apply, forgetValues, Select.addTable, Select.addTableExpr, Select.map]
  | tableExpr e => simp [apply, forgetValues, Select.addTableExpr, Select.map]
  | join name method condition =>
    simp [apply, forgetValues, Select.addJoin, Select.addJoinExpr, Select.map]
  | joinExpr e => simp [apply, forgetValues, Select.addJoinExpr, Select.map]
  | restrict r => simp [apply, forgetValues, Select.restrict, Select.map]
  | group path => simp [apply, forgetValues, Select.addGroup, Select.map]
  | ordering path direction => simp [apply, forgetValues, Select.addOrdering, Select.map]
  | distinct | having | limit | offset | lock => rfl

theorem InsertCall.map_apply (call : InsertCall) (s : Insert (Expr Empty)) :
    (call.apply s).map (Expr.relabel .forgetValues) =
      call.forgetValues.apply (s.map (Expr.relabel .forgetValues)) := by
  cases call with
  | columns names => simp [apply, forgetValues, Insert.setColumns, Insert.map]
  | row values =>
    simp only [apply, forgetValues, Insert.addRow, Insert.map, List.map_append, List.map_cons,
      List.map_map]
    rfl
  | returning names => simp [apply, forgetValues, Insert.addReturning, Insert.map]

theorem UpdateCall.map_apply (call : UpdateCall Empty) (s : Update (Expr Empty)) :
    (call.apply s).map (Expr.relabel .forgetValues) =
      call.forgetValues.apply (s.map (Expr.relabel .forgetValues)) := by
  cases call with
  | assign column v => simp [apply, forgetValues, Update.assign, Update.map, Expr.comparison]
  | restrict r => simp [apply, forgetValues, Update.restrict, Update.map]
  | returning names => simp [apply, forgetValues, Update.addReturning, Update.map]

theorem DeleteCall.map_apply (call : DeleteCall Empty) (s : Delete (Expr Empty)) :
    (call.apply s).map (Expr.relabel .forgetValues) =
      call.forgetValues.apply (s.map (Expr.relabel .forgetValues)) := by
  cases call with
  | restrict r => simp [apply, forgetValues, Delete.restrict, Delete.map]
  | returning names => simp [apply, forgetValues, Delete.addReturning, Delete.map]

theorem Select.map_build (calls : List (SelectCall Empty)) :
    (build calls).map (Expr.relabel .forgetValues) = build (calls.map SelectCall.forgetValues) := by
  rw [build, build, List.foldl_map]
  exact (List.foldl_hom _ fun s call => (call.map_apply s).symm).symm

theorem Insert.map_build (table : String) (calls : List InsertCall) :
    (build table calls).map (Expr.relabel .forgetValues) =
      build table (calls.map InsertCall.forgetValues) := by
  rw [build, build, List.foldl_map]
  exact (List.foldl_hom _ fun s call => (call.map_apply s).symm).symm

theorem Update.map_build (table : String) (calls : List (UpdateCall Empty)) :
    (build table calls).map (Expr.relabel .forgetValues) =
      build table (calls.map UpdateCall.forgetValues) := by
  rw [build, build, List.foldl_map]
  exact (List.foldl_hom _ fun s call => (call.map_apply s).symm).symm

theorem Delete.map_build (table : String) (calls : List (DeleteCall Empty)) :
    (build table calls).map (Expr.relabel .forgetValues) =
      build table (calls.map DeleteCall.forgetValues) := by
  rw [build, build, List.foldl_map]
  exact (List.foldl_hom _ fun s call => (call.map_apply s).symm).symm

namespace Expr

theorem sql_of_alike {e₁ e₂ : Expr Empty}
    (he : e₁.relabel .forgetValues = e₂.relabel .forgetValues) (d : Dialect) :
    (Query.of d e₁).sql = (Query.of d e₂).sql := (writer_alike he (.refl {}) d).sql

/-- Trees of one shape record equally many values, each from one place of both trees. -/
theorem values_of_alike {e₁ e₂ : Expr Empty}
    (he : e₁.relabel .forgetValues = e₂.relabel .forgetValues) (returning : Bool) :
    e₁.slots.length = e₂.slots.length ∧
    (e₁.values returning).length = (e₂.values returning).length ∧
    ∀ k < (e₁.values returning).length, ∃ i < e₁.slots.length,
      (e₁.slotOrder returning)[k]? = some i ∧
      (e₁.values returning)[k]? = e₁.slots[i]? ∧ (e₂.values returning)[k]? = e₂.slots[i]? := by
  have ho := slotOrder_eq he returning
  have hv : (e₁.values returning).length = (e₂.values returning).length := by
    have h₁ := congrArg List.length (e₁.map_slotOrder returning)
    have h₂ := congrArg List.length (e₂.map_slotOrder returning)
    simp only [List.length_map] at h₁ h₂
    rw [← h₁, ← h₂, ho]
  refine ⟨?_, hv, fun k hk => ?_⟩
  · rw [e₁.length_slots returning, e₂.length_slots returning, ← fold_relabel .forgetValues, he,
      fold_relabel]
  · obtain ⟨i, hi, h₁⟩ := getElem?_values hk
    obtain ⟨j, hj, h₂⟩ := getElem?_values (hv ▸ hk)
    rw [ho, hj] at hi
    cases hi
    refine ⟨i, ?_, ho ▸ hj, h₁, h₂⟩
    rw [List.getElem?_eq_getElem hk] at h₁
    exact (List.getElem?_eq_some_iff.1 h₁.symm).1

/-- The text of a tree does not depend on its values, and each value that is added comes from one
place, the same in all trees of the shape. The values given to a builder do not show in the text
after any call. -/
theorem values_never_reach_the_text (d : Dialect) :
    (∀ (e₁ e₂ : Expr Empty) (q₁ q₂ : Query),
      e₁.relabel .forgetValues = e₂.relabel .forgetValues →
      q₁.sql = q₂.sql → q₁.binds.length = q₂.binds.length →
      (e₁.writer d q₁).sql = (e₂.writer d q₂).sql ∧
      e₁.slots.length = e₂.slots.length ∧
      ∃ v₁ v₂, (e₁.writer d q₁).binds = q₁.binds ++ v₁ ∧ (e₂.writer d q₂).binds = q₂.binds ++ v₂ ∧
        v₁.length = v₂.length ∧
        ∀ k < v₁.length, ∃ i < e₁.slots.length, (e₁.slotOrder d.returning)[k]? = some i ∧
          v₁[k]? = e₁.slots[i]? ∧ v₂[k]? = e₂.slots[i]?) ∧
    (∀ (calls₁ calls₂ : List (SelectCall Empty)) (k : Nat),
      calls₁.map SelectCall.forgetValues = calls₂.map SelectCall.forgetValues →
      (Query.of d (select (.build (calls₁.take k)))).sql =
        (Query.of d (select (.build (calls₂.take k)))).sql) ∧
    (∀ (table : String) (calls₁ calls₂ : List InsertCall) (k : Nat),
      calls₁.map InsertCall.forgetValues = calls₂.map InsertCall.forgetValues →
      (Query.of d (insert (.build table (calls₁.take k)) : Expr Empty)).sql =
        (Query.of d (insert (.build table (calls₂.take k)) : Expr Empty)).sql) ∧
    (∀ (table : String) (calls₁ calls₂ : List (UpdateCall Empty)) (k : Nat),
      calls₁.map UpdateCall.forgetValues = calls₂.map UpdateCall.forgetValues →
      (Query.of d (update (.build table (calls₁.take k)))).sql =
        (Query.of d (update (.build table (calls₂.take k)))).sql) ∧
    ∀ (table : String) (calls₁ calls₂ : List (DeleteCall Empty)) (k : Nat),
      calls₁.map DeleteCall.forgetValues = calls₂.map DeleteCall.forgetValues →
      (Query.of d (delete (.build table (calls₁.take k)))).sql =
        (Query.of d (delete (.build table (calls₂.take k)))).sql := by
  refine ⟨fun e₁ e₂ q₁ q₂ he hs hl => ?_, fun c₁ c₂ k h => sql_of_alike ?_ d,
    fun t c₁ c₂ k h => sql_of_alike ?_ d, fun t c₁ c₂ k h => sql_of_alike ?_ d,
    fun t c₁ c₂ k h => sql_of_alike ?_ d⟩
  · obtain ⟨hslots, hlength, hvalues⟩ := values_of_alike he d.returning
    exact ⟨(writer_alike he ⟨hs, hl⟩ d).sql, hslots, _, _, e₁.binds_writer d q₁,
      e₂.binds_writer d q₂, hlength, hvalues⟩
  · rw [relabel_select, relabel_select, Select.map_build, Select.map_build, List.map_take,
      List.map_take, h]
  · rw [relabel_insert, relabel_insert, Insert.map_build, Insert.map_build, List.map_take,
      List.map_take, h]
  · rw [relabel_update, relabel_update, Update.map_build, Update.map_build, List.map_take,
      List.map_take, h]
  · rw [relabel_delete, relabel_delete, Delete.map_build, Delete.map_build, List.map_take,
      List.map_take, h]

/-- A value that looks like a statement is as good as any other. -/
theorem same_text_for_hostile_value :
    ((binary (column none "a") .equal (bind (.text "' OR 1 = 1 --"))).relabel .forgetValues =
        (binary (column none "a") .equal (bind .null)).relabel .forgetValues) ∧
    (Query.of .mysql (binary (column none "a") .equal (bind (.text "' OR 1 = 1 --")) : Expr Empty)).sql =
      (Query.of .mysql (binary (column none "a") .equal (bind .null) : Expr Empty)).sql :=
  ⟨rfl, ((values_never_reach_the_text .mysql).1 (binary (column none "a") .equal
    (bind (.text "' OR 1 = 1 --"))) (binary (column none "a") .equal (bind .null)) {} {} rfl rfl
    rfl).1⟩

end Expr

end BoundSql
