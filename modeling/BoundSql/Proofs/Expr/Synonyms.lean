import BoundSql.Expr.Writer

/-! Different trees that add the same text and the same values to every query. A list between
parentheses is written by a loop wherever it occurs, and a loop over numbered items writes a separator
before each item but the first. -/

namespace BoundSql

section

variable {ι : Type}

/-- The loop over numbered items: a separation and a step for each, and no separation before number
zero. -/
def Query.loop (separate : Query → Query) (step : ι → Query → Query) (is : List ι) (q : Query) :
    Query :=
  is.zipIdx.foldl (fun q p => step p.1 (if 0 < p.2 then separate q else q)) q

/-- The loop with commas, between parentheses. -/
def Query.enclosed (q : Query) (step : ι → Query → Query) (is : List ι) : Query :=
  (loop (·.write ", ") step is (q.write "(")).write ")"

/-- Behind the first item every item is separated. -/
theorem Query.foldl_zipIdx_of_pos (separate : Query → Query) (step : ι → Query → Query) {n : Nat}
    (hn : 0 < n) (is : List ι) (q : Query) :
    (is.zipIdx n).foldl (fun q p => step p.1 (if 0 < p.2 then separate q else q)) q =
      is.foldl (fun q i => step i (separate q)) q := by
  induction is generalizing n q with
  | nil => rfl
  | cons i is ih => rw [List.zipIdx_cons, List.foldl_cons, List.foldl_cons, ih n.succ_pos, if_pos hn]

theorem Query.loop_cons (separate : Query → Query) (step : ι → Query → Query) (i : ι) (is : List ι)
    (q : Query) : loop separate step (i :: is) q =
      is.foldl (fun q i => step i (separate q)) (step i q) :=
  Query.foldl_zipIdx_of_pos separate step Nat.one_pos is (step i q)

namespace Writer

theorem joined_cons_apply (separator : Writer) (w : ι → Writer) (i : ι) (is : List ι) (d : Dialect)
    (q : Query) : joined separator ((i :: is).map w) d q =
      is.foldl (fun q i => w i d (separator d q)) (w i d q) := by
  induction is generalizing i q with
  | nil => rfl
  | cons j is ih => exact ih j (separator d (w i d q))

theorem joined_map_apply (separator : Writer) (w : ι → Writer) (is : List ι) (d : Dialect)
    (q : Query) :
    joined separator (is.map w) d q = Query.loop (separator d) (fun i => w i d) is q := by
  cases is with
  | nil => rfl
  | cons i is => exact (joined_cons_apply separator w i is d q).trans (Query.loop_cons _ _ i is q).symm

theorem parenthesized_map_apply (w : ι → Writer) (is : List ι) (d : Dialect) (q : Query) :
    parenthesized (commaSeparated (is.map w)) d q = q.enclosed (fun i => w i d) is :=
  congrArg (·.write ")") (joined_map_apply (text ", ") w is d (q.write "("))

end Writer

end

namespace Expr

variable {ν : Type} [Writable ν]

theorem writer_list (es : List (Expr ν)) (separator : Expr ν) :
    (list es separator).writer = .joined separator.writer (es.map writer) :=
  congrArg (Writer.joined separator.writer) (writers_eq_map es)

theorem writer_group_commaList (es : List (Expr ν)) :
    (group (commaList es)).writer = .parenthesized (.commaSeparated (es.map writer)) :=
  congrArg Writer.parenthesized (writer_list es (raw ", "))

theorem writer_binds (vs : List Value) :
    (binds vs : Expr ν).writer = (group (commaList (vs.map bind)) : Expr ν).writer := by
  rw [writer_group_commaList, List.map_map]
  rfl

theorem writer_function (name : String) (args : List (Expr ν)) :
    (function name args).writer = (raw name : Expr ν).writer ++ (group (commaList args)).writer := by
  rw [writer_group_commaList, ← writers_eq_map]
  rfl

theorem writer_group_commaList_apply (es : List (Expr ν)) (d : Dialect) (q : Query) :
    (group (commaList es)).writer d q = q.enclosed (fun e => e.writer d) es := by
  rw [writer_group_commaList, Writer.parenthesized_map_apply]

theorem writer_list_apply (es : List (Expr ν)) (separator : Expr ν) (d : Dialect) (q : Query) :
    (list es separator).writer d q = Query.loop (separator.writer d) (fun e => e.writer d) es q := by
  rw [writer_list, Writer.joined_map_apply]

theorem writer_list_append {es fs : List (Expr ν)} (he : es ≠ []) (hf : fs ≠ [])
    (separator : Expr ν) :
    (list (es ++ fs) separator).writer =
      (list es separator).writer ++ separator.writer ++ (list fs separator).writer := by
  simp only [writer_list, List.map_append]
  exact Writer.joined_append separator.writer (mt List.map_eq_nil_iff.1 he) (mt List.map_eq_nil_iff.1 hf)

/-- The rows of an `INSERT` are written like a list of lists between parentheses. -/
theorem writer_rows (rows : List (List (Expr ν))) :
    (commaList (rows.map fun row => group (commaList row))).writer =
      .commaSeparated ((rows.map (List.map writer)).map Insert.rowWriter) := by
  rw [commaList, writer_list, List.map_map, List.map_map]
  exact congrArg Writer.commaSeparated (List.map_congr_left fun row _ => writer_group_commaList row)

theorem writer_rows_apply (rows : List (List (Expr ν))) (d : Dialect) (q : Query) :
    (commaList (rows.map fun row => group (commaList row))).writer d q =
      Query.loop (·.write ", ") (fun row q => q.enclosed (·.writer d) row) rows q := by
  rw [commaList, writer_list, List.map_map, Writer.joined_map_apply]
  have hrow : (fun row : List (Expr ν) => (writer ∘ fun row => group (commaList row)) row d) =
      fun row q => q.enclosed (·.writer d) row :=
    funext fun row => funext fun q => writer_group_commaList_apply row d q
  rw [hrow]
  rfl

/-- The statement without its rows, the rows if there are any, and the columns to give back. -/
theorem writer_insert (s : Insert (Expr ν)) (d : Dialect) (q : Query) :
    (insert s).writer d q =
      let opening := (insert { s with values := [], returning := [] }).writer d q
      Writer.returning (s.returning.map writer) d
        (if s.values.isEmpty then opening
        else (commaList (s.values.map fun row => group (commaList row))).writer d
          (opening.write " VALUES ")) := by
  have hnone (q : Query) : Writer.returning [] d q = q := ite_self q
  simp only [writer_rows]
  simp only [writer, insertWriters_eq_map, Insert.writer, Writer.append_apply, Insert.map,
    List.map_nil, hnone]
  cases s.values <;> rfl

theorem writer_binary_left (a b c : Expr ν) (f g : Operator) :
    (binary (binary a f b) g c).writer =
      (list [a, operator f, b, operator g, c] (raw " ")).writer := by
  rw [writer_list]
  rfl

theorem writer_binary_right (a b c : Expr ν) (f g : Operator) :
    (binary a f (binary b g c)).writer =
      (list [a, operator f, b, operator g, c] (raw " ")).writer := by
  rw [writer_list]
  rfl

/-- Values, rows, arguments and operands are written in one way each, whichever trees they stand in:
as a list, which is a loop over its items, and which is written in parts with the separator between
them. -/
theorem lists_are_written_alike (d : Dialect) (q : Query) :
    (∀ (es : List (Expr ν)) (separator : Expr ν),
      (list es separator).writer d q = Query.loop (separator.writer d) (·.writer d) es q ∧
      (group (commaList es)).writer d q = q.enclosed (·.writer d) es) ∧
    (∀ vs : List Value,
      q.enclosed (fun v q => q.bind d v) vs = (binds vs : Expr ν).writer d q ∧
      (binds vs : Expr ν).writer d q = (group (commaList (vs.map bind)) : Expr ν).writer d q) ∧
    (∀ s : Insert (Expr ν),
      let opening := (insert { s with values := [], returning := [] }).writer d q
      let rows := (commaList (s.values.map fun row => group (commaList row))).writer d
        (opening.write " VALUES ")
      Query.loop (·.write ", ") (fun row q => q.enclosed (·.writer d) row) s.values
        (opening.write " VALUES ") = rows ∧
      (insert s).writer d q = Writer.returning (s.returning.map writer) d
        (if s.values.isEmpty then opening else rows)) ∧
    (∀ (name : String) (args : List (Expr ν)),
      (function name args).writer d q = (q.write name).enclosed (·.writer d) args ∧
      (function name args).writer d q =
        (group (commaList args)).writer d ((raw name : Expr ν).writer d q)) ∧
    (∀ (a b c : Expr ν) (f g : Operator),
      (binary (binary a f b) g c).writer d q = (binary a f (binary b g c)).writer d q ∧
      (binary (binary a f b) g c).writer d q =
        (list [a, operator f, b, operator g, c] (raw " ")).writer d q) ∧
    ∀ (es fs : List (Expr ν)) (separator : Expr ν), es ≠ [] → fs ≠ [] →
      (list (es ++ fs) separator).writer d q =
        (list fs separator).writer d (separator.writer d ((list es separator).writer d q)) := by
  refine ⟨fun es separator => ⟨writer_list_apply es separator d q, writer_group_commaList_apply es d q⟩,
    fun vs => ⟨?_, congrFun (congrFun (writer_binds vs) d) q⟩, fun s => ?_,
    fun name args => ⟨?_, congrFun (congrFun (writer_function name args) d) q⟩,
    fun a b c f g => ⟨?_, congrFun (congrFun (writer_binary_left a b c f g) d) q⟩,
    fun es fs separator he hf => congrFun (congrFun (writer_list_append he hf separator) d) q⟩
  · exact (Writer.parenthesized_map_apply .bind vs d q).symm
  · exact ⟨(writer_rows_apply s.values d _).symm, writer_insert s d q⟩
  · rw [writer_function, Writer.append_apply, writer_group_commaList_apply]
    rfl
  · rw [writer_binary_left, writer_binary_right]

/-- A separator with a value of its own, before and behind further values. -/
theorem lists_around_values_are_written_alike :
    let d := Dialect.postgres
    let q : Query := ⟨"a = $1 AND ", [.null]⟩
    let es : List (Expr Empty) := [binds [.bool true, .bool false]]
    let fs : List (Expr Empty) := [function "F" [], bind (.text "x")]
    let separator : Expr Empty := list [raw " <", bind .null, raw "> "] (raw "")
    es ≠ [] ∧ fs ≠ [] ∧
    (list (es ++ fs) separator).writer d q =
      (list fs separator).writer d (separator.writer d ((list es separator).writer d q)) ∧
    (list (es ++ fs) separator).writer d q =
      ⟨"a = $1 AND ($2, $3) <$4> F() <$5> $6",
        [.null, .bool true, .bool false, .null, .null, .text "x"]⟩ := by
  intro d q es fs separator
  have he : es ≠ [] := List.cons_ne_nil _ _
  have hf : fs ≠ [] := List.cons_ne_nil _ _
  obtain ⟨-, -, -, -, -, append⟩ := @lists_are_written_alike Empty _ d q
  exact ⟨he, hf, append es fs separator he hf, by decide +kernel⟩

end Expr

end BoundSql
