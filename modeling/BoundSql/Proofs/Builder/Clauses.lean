import BoundSql.Expr.Writer
import BoundSql.Proofs.Builder.Select
import BoundSql.Proofs.Piece

/-! Calls for different clauses do not meet. What is built, seen at one clause alone, is built by
the calls for that clause alone, so that the order of calls counts within a clause only, and each
clause adds to the text and the values what its own calls have put there. -/

namespace BoundSql

variable {ν ε δ : Type}

/-- The clause that a call fills in. -/
def SelectCall.clause : SelectCall ν → Clause
  | column _ | columns _ | columnExpr _ => .columns
  | distinct => .distinct
  | table _ | tableExpr _ => .tables
  | join _ _ _ | joinExpr _ => .joins
  | restrict _ => .predicate
  | group _ => .groupBy
  | having _ => .having
  | ordering _ _ => .orderBy
  | limit _ => .limit
  | offset _ => .offset
  | lock _ => .locking

/-- Conditions from left to right, without parentheses; the first connective joins nothing. -/
def Restriction.joined : List (Restriction ν) → Option (Expr ν)
  | [] => none
  | r :: rs =>
    some (rs.foldl (fun e r => .binary e r.connective.operator r.condition.toExpr)
      r.condition.toExpr)

theorem Restriction.chain_none (rs : List (Restriction ν)) : chain none rs = joined rs := by
  have run (e : Expr ν) (rs : List (Restriction ν)) : chain (some e) rs =
      some (rs.foldl (fun e r => .binary e r.connective.operator r.condition.toExpr) e) := by
    induction rs generalizing e with
    | nil => rfl
    | cons r rs ih => exact ih _
  cases rs with
  | nil => rfl
  | cons r rs => exact run _ rs

namespace Select

/-- What calls ask of each clause: the items of all of them in their order, or the last choice. -/
def gathered (calls : List (SelectCall ν)) : Select (Expr ν) where
  columns := calls.flatMap SelectCall.columnItems
  tables := calls.flatMap SelectCall.tableItems
  distinct := calls.any SelectCall.isDistinct
  joins := calls.flatMap SelectCall.joinItems
  predicate := Restriction.joined (calls.filterMap SelectCall.restriction?)
  groupBy := calls.flatMap SelectCall.groupItems
  having := (calls.filterMap SelectCall.having?).getLast?
  orderBy := calls.flatMap SelectCall.orderItems
  limit := (calls.filterMap SelectCall.limit?).getLast?
  offset := (calls.filterMap SelectCall.offset?).getLast?
  locking := (calls.filterMap SelectCall.lock?).getLast?

theorem build_eq_gathered (calls : List (SelectCall ν)) : build calls = gathered calls := by
  rw [gathered, ← build_columns, ← build_tables, ← build_distinct, ← build_joins,
    ← Restriction.chain_none, ← build_predicate, ← build_groupBy, ← build_having, ← build_orderBy,
    ← build_limit, ← build_offset, ← build_locking]

/-- A query with one clause only. -/
def only (s : Select ε) : Clause → Select ε
  | .distinct => { distinct := s.distinct }
  | .columns => { columns := s.columns }
  | .tables => { tables := s.tables }
  | .joins => { joins := s.joins }
  | .predicate => { predicate := s.predicate }
  | .groupBy => { groupBy := s.groupBy }
  | .having => { having := s.having }
  | .orderBy => { orderBy := s.orderBy }
  | .limit => { limit := s.limit }
  | .offset => { offset := s.offset }
  | .locking => { locking := s.locking }

theorem eq_of_only {s t : Select ε} (h : ∀ c, s.only c = t.only c) : s = t := by
  have hdistinct := congrArg Select.distinct (h .distinct)
  have hcolumns := congrArg Select.columns (h .columns)
  have htables := congrArg Select.tables (h .tables)
  have hjoins := congrArg Select.joins (h .joins)
  have hpredicate := congrArg Select.predicate (h .predicate)
  have hgroupBy := congrArg Select.groupBy (h .groupBy)
  have hhaving := congrArg Select.having (h .having)
  have horderBy := congrArg Select.orderBy (h .orderBy)
  have hlimit := congrArg Select.limit (h .limit)
  have hoffset := congrArg Select.offset (h .offset)
  have hlocking := congrArg Select.locking (h .locking)
  cases s
  cases t
  simp only [only] at *
  subst_vars
  rfl

end Select

/-- A call does to its own clause what it does to that clause alone. -/
theorem SelectCall.apply_only_clause (call : SelectCall ν) (s : Select (Expr ν)) :
    (call.apply s).only call.clause = call.apply (s.only call.clause) := by
  cases call with
  | columns names => simp only [clause, Select.apply_columns, Select.only]
  | _ => rfl

theorem SelectCall.apply_only_of_ne {call : SelectCall ν} {c : Clause} (h : call.clause ≠ c)
    (s : Select (Expr ν)) : (call.apply s).only c = s.only c := by
  -- one goal for each call and clause: the clause is the call's own, or the call does not touch it
  cases call with
  | columns names => cases c <;> first | exact absurd rfl h | rw [Select.apply_columns]; rfl
  | _ => cases c <;> first | exact absurd rfl h | rfl

namespace Select

/-- What is built, seen at one clause, is built by the calls for that clause. -/
theorem build_only (calls : List (SelectCall ν)) (c : Clause) :
    (build calls).only c = build (calls.filter fun call => call.clause = c) := by
  have run (s : Select (Expr ν)) : (calls.foldl (fun s call => call.apply s) s).only c =
      (calls.filter fun call => call.clause = c).foldl (fun s call => call.apply s) (s.only c) := by
    induction calls generalizing s with
    | nil => rfl
    | cons call calls ih =>
      rw [List.foldl_cons, ih]
      by_cases h : call.clause = c
      · subst h
        rw [List.filter_cons_of_pos (by simp), List.foldl_cons, call.apply_only_clause]
      · rw [List.filter_cons_of_neg (by simpa using h), call.apply_only_of_ne h]
  have start : ({} : Select (Expr ν)).only c = {} := by cases c <;> rfl
  rw [build, run, start, build]

theorem build_congr {calls₁ calls₂ : List (SelectCall ν)}
    (h : ∀ c, calls₁.filter (fun call => call.clause = c) =
      calls₂.filter fun call => call.clause = c) : build calls₁ = build calls₂ :=
  eq_of_only fun c => by rw [build_only, h, build_only]

/-- A call anywhere among others leaves every clause but its own as it would be without it. -/
theorem build_only_insert {call : SelectCall ν} {c : Clause} (h : call.clause ≠ c)
    (before after : List (SelectCall ν)) :
    (build (before ++ call :: after)).only c = (build (before ++ after)).only c := by
  rw [build_only, build_only, List.filter_append, List.filter_append,
    List.filter_cons_of_neg (by simpa using h)]

/-- What a clause adds to a query. -/
def contribution [Writable ν] (s : Select (Expr ν)) (c : Clause) : Writer :=
  ((s.segment c).map Expr.writer).writer

/-- The texts and values that a clause of built-in nodes adds to a query in some dialect. -/
def clausePieces (d : Dialect) (s : Select (Expr Empty)) (c : Clause) : List Piece :=
  ((s.segment c).map Expr.script).script.pieces d

theorem segment_only (s : Select ε) (c : Clause) : (s.only c).segment c = s.segment c := by
  cases c <;> rfl

theorem contribution_only [Writable ν] (s : Select (Expr ν)) (c : Clause) :
    (s.only c).contribution c = s.contribution c := by
  rw [contribution, segment_only, contribution]

theorem clausePieces_only (d : Dialect) (s : Select (Expr Empty)) (c : Clause) :
    (s.only c).clausePieces d c = s.clausePieces d c := by
  rw [clausePieces, segment_only, clausePieces]

theorem clausesWriter_apply [Writable ν] (s : Select (Expr ν)) (d : Dialect) (q : Query)
    (cs : List Clause) : (s.map Expr.writer).clausesWriter cs d q =
      cs.foldl (fun q c => s.contribution c d q) q := by
  induction cs generalizing q with
  | nil => rfl
  | cons c cs ih => rw [clausesWriter, Writer.append_apply, ih, segment_map]; rfl

/-- A query is written clause by clause, each behind what the clauses before it have added. -/
theorem query_eq_contributions [Writable ν] (s : Select (Expr ν)) (d : Dialect) :
    Query.of d (Expr.select s) =
      Clause.inOrder.foldl (fun q c => s.contribution c d q) ⟨"SELECT ", []⟩ := by
  show (Expr.selectWriters s).writer d {} = _
  rw [Expr.selectWriters_eq_map, ← clausesWriter_apply]
  rfl

theorem contribution_apply {d : Dialect} (hd : d.Visible) (s : Select (Expr Empty)) (c : Clause)
    (q : Query) : s.contribution c d q = q.addPieces d (s.clausePieces d c) := by
  have h : ((s.segment c).map Expr.script).map Script.writer = (s.segment c).map Expr.writer := by
    rw [Segment.map_map, (funext Expr.writer_script : Script.writer ∘ Expr.script = Expr.writer)]
  rw [contribution, ← h, ← Segment.writer_script, Script.writer_apply hd, clausePieces]

/-- The order of calls counts within a clause only, and every item and the last of each choice is
kept. A query consists of the contributions of its clauses, which add texts and values, and a call
makes a difference to the contribution of its own clause only. -/
theorem calls_meet_only_in_their_clause [Writable ν] :
    (∀ calls₁ calls₂ : List (SelectCall ν),
      (∀ c, calls₁.filter (fun call => call.clause = c) =
        calls₂.filter fun call => call.clause = c) →
      build calls₁ = build calls₂ ∧
      ∀ d, Query.of d (Expr.select (build calls₁)) = Query.of d (Expr.select (build calls₂))) ∧
    (∀ calls : List (SelectCall ν), build calls = gathered calls) ∧
    (∀ (calls : List (SelectCall ν)) (d : Dialect), Query.of d (Expr.select (build calls)) =
      Clause.inOrder.foldl (fun q c => (build calls).contribution c d q) ⟨"SELECT ", []⟩) ∧
    (∀ (before : List (SelectCall ν)) call after c, call.clause ≠ c →
      (build (before ++ call :: after)).contribution c =
        (build (before ++ after)).contribution c) ∧
    (∀ (d : Dialect) (calls : List (SelectCall Empty)) c q, d.Visible →
      (build calls).contribution c d q = q.addPieces d ((build calls).clausePieces d c)) ∧
    ∀ (d : Dialect) (before : List (SelectCall Empty)) call after c, call.clause ≠ c →
      (build (before ++ call :: after)).clausePieces d c =
        (build (before ++ after)).clausePieces d c := by
  refine ⟨?_, build_eq_gathered, fun calls => query_eq_contributions _, ?_, ?_, ?_⟩
  · intro calls₁ calls₂ h
    have hbuild := build_congr h
    exact ⟨hbuild, fun d => by rw [hbuild]⟩
  · intro before call after c h
    rw [← contribution_only, build_only_insert h, contribution_only]
  · intro d calls c q hd
    exact contribution_apply hd _ c q
  · intro d before call after c h
    rw [← clausePieces_only, build_only_insert h, clausePieces_only]

/-- Calls as they come, and the same calls in the order of the grammar. -/
theorem mixed_calls_build_one_query :
    (∀ c, [.limit 5, .restrict ⟨.or, .column "t.a" .equal (.int 1)⟩, .column "*",
          .having (.raw "n"), .restrict ⟨.or, .expr (.bind .null)⟩, .having (.bind (.bool true)),
          .lock .update, .column "b"].filter (fun call => call.clause = c) =
      [.column "*", .column "b", .restrict ⟨.or, .column "t.a" .equal (.int 1)⟩,
          .restrict ⟨.or, .expr (.bind .null)⟩, .having (.raw "n"), .having (.bind (.bool true)),
          .limit 5, .lock .update].filter fun call : SelectCall Empty => call.clause = c) ∧
    Query.of .postgres (Expr.select (ν := Empty) (build
        [.limit 5, .restrict ⟨.or, .column "t.a" .equal (.int 1)⟩, .column "*", .having (.raw "n"),
          .restrict ⟨.or, .expr (.bind .null)⟩, .having (.bind (.bool true)), .lock .update,
          .column "b"])) =
      ⟨"SELECT *, \"b\" WHERE \"t\".\"a\" = $1 OR $2 HAVING $3 LIMIT 5 FOR UPDATE",
        [.int 1, .null, .bool true]⟩ := by
  suffices h : ∀ c, _ = _ from
    ⟨h, ((calls_meet_only_in_their_clause.1 _ _ h).2 .postgres).trans rfl⟩
  intro c
  cases c <;> rfl

end Select

end BoundSql
