import Mathlib.Algebra.GroupWithZero.Nat
import BoundSql.Proofs.Builder.Changes

/-! What statements that change rows say, and where their values stand. A value is numbered by the
values before it in the text, so that the numbers go by clauses and not by calls. -/

namespace BoundSql

/-- The text of comparisons behind a number of values. -/
def Chain.textBehind (d : Dialect) (c : Chain) (n : ℕ) : List Char :=
  c.first.text d (n + 1) ++ (c.rest.zipIdx (n + 2)).flatMap (Comparison.restText d)

theorem Chain.fills_expr {d : Dialect} (c : Chain) :
    (c.expr : Expr Empty).writer.Fills d (c.textBehind d) c.values := fun q => by
  rw [expr, Comparison.writer_foldl c.rest _ q _ (c.first.writer_expr q)]
  simp [textBehind, values, String.append_assoc]

/-- The text of an assignment behind a number of values. -/
def assignmentText (d : Dialect) (a : String × Value) (n : ℕ) : List Char :=
  nameText d.quoted a.1 ++ " = ".toList ++ (d.placeholder (n + 1)).toList

theorem Expr.fills_assignment {d : Dialect} (a : String × Value) :
    (assignment a : Expr Empty).writer.Fills d (assignmentText d a) [a.2] := by
  have hcolumn := ((adds_columnWriter a.1).append (Writer.adds_text " ")).append
    (Writer.adds_text "=") |>.append (Writer.adds_text " ") (d := d)
  have htext : nameText d.quoted a.1 ++ " ".toList ++ "=".toList ++ " ".toList =
      nameText d.quoted a.1 ++ " = ".toList := by
    simp only [List.append_assoc]
    rfl
  rw [htext] at hcolumn
  exact hcolumn.append_fills (Writer.fills_bind a.2)

/-- The text of a row behind a number of values. -/
def rowText (d : Dialect) (row : List Value) (n : ℕ) : List Char :=
  "(".toList ++ commas (row.mapIdx fun j _ => (d.placeholder (n + j + 1)).toList) ++ ")".toList

theorem Insert.fills_rowWriter {d : Dialect} (row : List Value) :
    (rowWriter (row.map .bind)).Fills d (rowText d row) row := by
  have hrow := Writer.fills_commaSeparated (fun v : Value => Writer.fills_bind (d := d) v) row
  have h := ((Writer.adds_text "(").append_fills hrow).append_adds (Writer.adds_text ")")
  simp only [Writer.placed_of_single, List.flatMap_singleton'] at h
  exact h

def returningText (d : Dialect) (names : List String) : List Char :=
  if d.returning then clauseText " RETURNING " (names.map (nameText d.quoted)) else []

theorem adds_returning {d : Dialect} (names : List String) :
    (Writer.returning ((Expr.namedColumns names : List (Expr Empty)).map Expr.writer)).Adds d
      (returningText d names) := by
  have h := Writer.adds_clause Expr.adds_columnWriter (d := d) " RETURNING " names
  rw [Expr.namedColumns, List.map_map, returningText]
  intro q
  show (if d.returning then _ else q) = _
  split
  · exact h q
  · exact Writer.adds_nothing (d := d) q

theorem Chain.values_of (ks : List (Connective × Comparison)) :
    ((Chain.of ks).map values).getD [] = ks.map fun k => k.2.value := by
  cases ks <;> rfl

/-- The text of comparisons, if there are any, behind a number of values. -/
def conditionsText (d : Dialect) (ks : List (Connective × Comparison)) (n : ℕ) : List Char :=
  optionText " WHERE " ((Chain.of ks).map fun c => c.textBehind d n)

theorem fills_conditions {d : Dialect} (ks : List (Connective × Comparison)) :
    (Writer.optional " WHERE " (((Chain.of ks).map Chain.expr).map
      (Expr.writer : Expr Empty → Writer))).Fills d (conditionsText d ks)
      (ks.map fun k => k.2.value) := by
  rw [← Chain.values_of, Option.map_map]
  exact Writer.fills_optional Chain.fills_expr " WHERE " (Chain.of ks)

/-- The text of an update: values to set are numbered before those of the conditions. -/
def Update.text (d : Dialect) (table : String) (assignments : List (String × Value))
    (conditions : List (Connective × Comparison)) (returned : List String) : List Char :=
  "UPDATE ".toList ++ (d.quoted table).toList ++ " SET ".toList ++
  commas (assignments.mapIdx fun i a => assignmentText d a i) ++
  conditionsText d conditions assignments.length ++ returningText d returned

theorem Update.query_build (d : Dialect) (table : String) {calls : List (UpdateCall Empty)}
    (h : ∀ r ∈ calls.filterMap UpdateCall.restriction?, r.Plain) :
    let assignments := calls.filterMap UpdateCall.assignment?
    let conditions := (calls.filterMap UpdateCall.restriction?).filterMap Restriction.comparison?
    Query.of d (Expr.update (build table calls)) =
      ⟨String.ofList (text d table assignments conditions (calls.flatMap UpdateCall.returned)),
        assignments.map Prod.snd ++ conditions.map fun k => k.2.value⟩ := by
  intro assignments conditions
  have hvalues := Writer.fills_commaSeparated (Expr.fills_assignment (d := d)) assignments
  have hopening := ((Writer.adds_text "UPDATE ").append (Writer.adds_name table)).append
    (Writer.adds_text " SET ") (d := d)
  have hall := (((hopening.append_fills hvalues).append (fills_conditions conditions)).append_adds
    (adds_returning (calls.flatMap UpdateCall.returned))).query
  have hsnd : (assignments.flatMap fun a => [a.2]) = assignments.map Prod.snd :=
    List.map_eq_flatMap.symm
  simp only [Writer.placed_of_single, hsnd, List.length_map, Nat.zero_add] at hall
  refine Eq.trans ?_ hall
  show (Expr.updateWriters (build table calls)).writer d {} = _
  rw [Expr.updateWriters_eq_map, build_eq table h, writer, map, List.map_map]
  rfl

/-- The text of a deletion. -/
def Delete.text (d : Dialect) (table : String) (conditions : List (Connective × Comparison))
    (returned : List String) : List Char :=
  "DELETE FROM ".toList ++ (d.quoted table).toList ++ conditionsText d conditions 0 ++
  returningText d returned

theorem Delete.query_build (d : Dialect) (table : String) {calls : List (DeleteCall Empty)}
    (h : ∀ r ∈ calls.filterMap DeleteCall.restriction?, r.Plain) :
    let conditions := (calls.filterMap DeleteCall.restriction?).filterMap Restriction.comparison?
    Query.of d (Expr.delete (build table calls)) =
      ⟨String.ofList (text d table conditions (calls.flatMap DeleteCall.returned)),
        conditions.map fun k => k.2.value⟩ := by
  intro conditions
  have hopening := (Writer.adds_text "DELETE FROM ").append (Writer.adds_name table) (d := d)
  have hall := ((hopening.append_fills (fills_conditions conditions)).append_adds
    (adds_returning (calls.flatMap DeleteCall.returned))).query
  refine Eq.trans ?_ hall
  show (Expr.deleteWriters (build table calls)).writer d {} = _
  rw [Expr.deleteWriters_eq_map, build_eq table h, writer, map]
  rfl

def Insert.columnsText (d : Dialect) : List String → List Char
  | [] => []
  | n :: ns => " (".toList ++ commas ((n :: ns).map (nameText d.quoted)) ++ ")".toList

/-- The text of an insertion: the values of a row are numbered behind those of the rows before. -/
def Insert.text (d : Dialect) (table : String) (columns : List String) (rows : List (List Value))
    (returned : List String) : List Char :=
  "INSERT INTO ".toList ++ (d.quoted table).toList ++ columnsText d columns ++
  clauseText " VALUES " (rows.mapIdx fun i row =>
    rowText d row ((rows.take i).map List.length).sum) ++ returningText d returned

theorem Insert.adds_columnsWriter {d : Dialect} (names : List String) :
    (columnsWriter ((Expr.namedColumns names : List (Expr Empty)).map Expr.writer)).Adds d
      (columnsText d names) := by
  rw [Expr.namedColumns, List.map_map]
  cases names with
  | nil => exact Writer.adds_nothing
  | cons n ns =>
    have hnames := Writer.adds_commaSeparated Expr.adds_columnWriter (d := d) (n :: ns)
    have h := ((Writer.adds_text " ").append (Writer.adds_text "(")).append hnames
      |>.append (Writer.adds_text ")")
    exact h

theorem Insert.map_writer_bind (rows : List (List Value)) :
    (rows.map (List.map (Expr.bind : Value → Expr Empty))).map (List.map Expr.writer) =
      rows.map (List.map .bind) := by
  rw [List.map_map]
  exact List.map_congr_left fun row _ => List.map_map

theorem Insert.query_build (d : Dialect) (table : String) (calls : List InsertCall) :
    let rows := calls.filterMap InsertCall.row?
    Query.of d (Expr.insert (ν := Empty) (build table calls)) =
      ⟨String.ofList (text d table (InsertCall.lastColumns calls) rows
        (calls.flatMap InsertCall.returned)), rows.flatten⟩ := by
  intro rows
  have hopening := ((Writer.adds_text "INSERT INTO ").append (Writer.adds_name table)).append
    (adds_columnsWriter (InsertCall.lastColumns calls)) (d := d)
  have hrows := Writer.fills_clause (fills_rowWriter (d := d)) " VALUES " rows
  have hall := ((hopening.append_fills hrows).append_adds
    (adds_returning (calls.flatMap InsertCall.returned))).query
  have hplaced : Writer.placed (rowText d) (fun row => row) 0 rows =
      rows.mapIdx fun i row => rowText d row ((rows.take i).map List.length).sum := by
    simp [Writer.placed]
  rw [hplaced, List.flatMap_id'] at hall
  refine Eq.trans ?_ hall
  show (Expr.insertWriters (build table calls)).writer d {} = _
  rw [Expr.insertWriters_eq_map, build_eq table, writer, map]
  simp only [map_writer_bind]
  rw [List.map_map]
  rfl

/-- However calls are mixed, values to set are numbered in their order and the values of conditions
behind them, the values of rows one row after another, and those of a deletion from one on. Rows keep
their lengths, and returned columns gather, but of the calls that name columns only the last counts. -/
theorem layout_of_changes (d : Dialect) (table : String) :
    (∀ calls : List (UpdateCall Empty),
      (∀ r ∈ calls.filterMap UpdateCall.restriction?, r.Plain) →
      let assignments := calls.filterMap UpdateCall.assignment?
      let conditions :=
        (calls.filterMap UpdateCall.restriction?).filterMap Restriction.comparison?
      Query.of d (Expr.update (.build table calls)) =
        ⟨String.ofList (Update.text d table assignments conditions
            (calls.flatMap UpdateCall.returned)),
          assignments.map Prod.snd ++ conditions.map fun k => k.2.value⟩) ∧
    (∀ calls : List InsertCall,
      let rows := calls.filterMap InsertCall.row?
      (.build table calls : Insert (Expr Empty)) =
        { table := .identifier table
          columns := Expr.namedColumns (InsertCall.lastColumns calls)
          values := rows.map (List.map .bind)
          returning := Expr.namedColumns (calls.flatMap InsertCall.returned) } ∧
      Query.of d (Expr.insert (ν := Empty) (.build table calls)) =
        ⟨String.ofList (Insert.text d table (InsertCall.lastColumns calls) rows
          (calls.flatMap InsertCall.returned)), rows.flatten⟩) ∧
    (∀ calls : List (DeleteCall Empty),
      (∀ r ∈ calls.filterMap DeleteCall.restriction?, r.Plain) →
      let conditions :=
        (calls.filterMap DeleteCall.restriction?).filterMap Restriction.comparison?
      Query.of d (Expr.delete (.build table calls)) =
        ⟨String.ofList (Delete.text d table conditions (calls.flatMap DeleteCall.returned)),
          conditions.map fun k => k.2.value⟩) ∧
    ∀ n, Dialect.postgres.placeholder n = "$" ++ toString n :=
  ⟨fun _ h => Update.query_build d table h,
    fun calls => ⟨Insert.build_eq table calls, Insert.query_build d table calls⟩,
    fun _ h => Delete.query_build d table h, fun _ => rfl⟩

/-- Conditions before the values to set, and rows of different lengths. -/
theorem layout_of_mixed_calls :
    let updates : List (UpdateCall Empty) :=
      [.restrict ⟨.and, .column "a" .equal (.int 1)⟩, .assign "b" (.int 2), .returning ["c"],
        .restrict ⟨.or, .column "d" .less (.int 3)⟩, .assign "e" .null]
    let inserts : List InsertCall :=
      [.row [.int 1, .int 2], .columns ["a"], .returning ["b"], .row [], .row [.int 3],
        .columns ["c", "d"], .returning ["e"]]
    let deletes : List (DeleteCall Empty) :=
      [.returning ["c"], .restrict ⟨.or, .column "u.a" .like (.text "x")⟩]
    (∀ r ∈ updates.filterMap UpdateCall.restriction?, r.Plain) ∧
    (∀ r ∈ deletes.filterMap DeleteCall.restriction?, r.Plain) ∧
    Query.of .postgres (Expr.update (.build "t" updates)) =
      ⟨"UPDATE \"t\" SET \"b\" = $1, \"e\" = $2 WHERE \"a\" = $3 OR \"d\" < $4 RETURNING \"c\"",
        [.int 2, .null, .int 1, .int 3]⟩ ∧
    Query.of .postgres (Expr.insert (ν := Empty) (.build "t" inserts)) =
      ⟨"INSERT INTO \"t\" (\"c\", \"d\") VALUES ($1, $2), (), ($3) RETURNING \"b\", \"e\"",
        [.int 1, .int 2, .int 3]⟩ ∧
    Query.of .mysql (Expr.delete (.build "t" deletes)) =
      ⟨"DELETE FROM \x60t\x60 WHERE \x60u\x60.\x60a\x60 LIKE ?", [.text "x"]⟩ := by
  intro updates inserts deletes
  have hupdates : ∀ r ∈ updates.filterMap UpdateCall.restriction?, r.Plain := by
    simp [updates, UpdateCall.restriction?, Restriction.Plain, Restriction.comparison?]
  have hdeletes : ∀ r ∈ deletes.filterMap DeleteCall.restriction?, r.Plain := by
    simp [deletes, DeleteCall.restriction?, Restriction.Plain, Restriction.comparison?]
  obtain ⟨hupdate, hinsert, -, -⟩ := layout_of_changes .postgres "t"
  obtain ⟨-, -, hdelete, -⟩ := layout_of_changes .mysql "t"
  exact ⟨hupdates, hdeletes, (hupdate updates hupdates).trans (by decide +kernel),
    (hinsert inserts).2.trans (by decide +kernel),
    (hdelete deletes hdeletes).trans (by decide +kernel)⟩

end BoundSql
