import BoundSql.Command.Report
import BoundSql.Proofs.Command.Written
import BoundSql.Proofs.Readback
import BoundSql.Proofs.Secrecy

/-! What a request asks for and what its query says. Filters are cut at their first equals sign and
orderings at their last colon, and the query that comes of them says, clause by clause, what the
texts said. -/

namespace BoundSql.Command

/-- A filter says that the column at the path before its first equals sign has the value behind. -/
def Filters (s : String) (k : Comparison) : Prop :=
  ∃ value : List Char, s.toList = k.path.toList ++ '=' :: value ∧ '=' ∉ k.path.toList ∧
    k.op = .equal ∧ k.value = filterValue (String.ofList value)

/-- An ordering is a path, or a path with a direction behind its last colon. -/
def Orders (s : String) (o : String × Direction) : Prop :=
  (':' ∉ s.toList ∧ o = (s, .ascending)) ∨
  ∃ word : List Char, s.toList = o.1.toList ++ ':' :: word ∧ ':' ∉ word ∧
    (o.2 = .descending ↔ word.map Char.toLower = "desc".toList)

/-- Two filters that differ in their values only. -/
def SamePath (s t : String) : Prop :=
  ∃ path v w : List Char, '=' ∉ path ∧ s.toList = path ++ '=' :: v ∧ t.toList = path ++ '=' :: w

/-- An accepted filter is cut in two. -/
theorem first?_of_readFilter {s : String} {f : String × Value} (h : readFilter s = .ok f) :
    ∃ value, Split.first? '=' s = some (f.1, value) ∧ f.2 = filterValue value := by
  unfold readFilter at h
  split at h
  · cases h
  · next path value hs =>
    split at h
    · cases h
    · cases h
      exact ⟨value, hs, rfl⟩

theorem filters_of_readFilter {s : String} {f : String × Value} (h : readFilter s = .ok f) :
    Filters s ⟨f.1, .equal, f.2⟩ := by
  obtain ⟨value, hs, hv⟩ := first?_of_readFilter h
  obtain ⟨hs, hpath⟩ := Split.first?_eq_some_iff.1 hs
  exact ⟨value.toList, hs, hpath, rfl, by rw [String.ofList_toList, hv]⟩

theorem path_of_samePath {s t : String} {f g : String × Value} (hs : readFilter s = .ok f)
    (ht : readFilter t = .ok g) (h : SamePath s t) : f.1 = g.1 := by
  obtain ⟨path, v, w, hpath, hsv, htw⟩ := h
  obtain ⟨value, hs, -⟩ := first?_of_readFilter hs
  obtain ⟨value', ht, -⟩ := first?_of_readFilter ht
  have cut {s : String} {v : List Char} (h : s.toList = path ++ '=' :: v) :
      Split.first? '=' s = some (String.ofList path, String.ofList v) := by
    apply Split.first?_eq_some_iff.2
    rw [String.toList_ofList, String.toList_ofList]
    exact ⟨h, hpath⟩
  have hf := (cut hsv).symm.trans hs
  have hg := (cut htw).symm.trans ht
  simp only [Option.some.injEq, Prod.mk.injEq] at hf hg
  rw [← hf.1, ← hg.1]

theorem paths_of_samePath {ss ts : List String} {fs gs : List (String × Value)}
    (hs : Reads readFilter ss fs) (ht : Reads readFilter ts gs) (h : List.Forall₂ SamePath ss ts) :
    fs.map Prod.fst = gs.map Prod.fst := by
  induction h generalizing fs gs with
  | nil =>
    cases hs
    cases ht
    rfl
  | cons hst _ ih =>
    obtain - | ⟨hf, hfs⟩ := hs
    obtain - | ⟨hg, hgs⟩ := ht
    rw [List.map_cons, List.map_cons, path_of_samePath hf hg hst, ih hfs hgs]

theorem orders_of_readOrdering {s : String} {o : String × Direction} (h : readOrdering s = .ok o) :
    Orders s o := by
  unfold readOrdering at h
  split at h
  · next hs =>
    cases h
    refine .inl ⟨Split.last_eq_none_iff.1 ?_, rfl⟩
    exact Option.map_eq_none_iff.1 hs
  · next path word hs =>
    obtain ⟨hs, hword⟩ := Split.last?_eq_some_iff.1 hs
    have hlower (t : String) : String.ofList (word.toList.map Char.toLower) = t ↔
        word.toList.map Char.toLower = t.toList := by
      rw [← String.toList_inj, String.toList_ofList]
    simp only [hlower] at h
    right
    split at h
    · next hasc =>
      cases h
      refine ⟨word.toList, hs, hword, ?_⟩
      simp only [hasc]
      decide
    · split at h
      · next hdesc =>
        cases h
        exact ⟨word.toList, hs, hword, by simp only [hdesc]⟩
      · cases h

namespace Request

variable (r : Request)

/-- The comparisons that a request asks for. -/
def comparisons (r : Request) : List Comparison := r.filters.map fun f => ⟨f.1, .equal, f.2⟩

/-- What a request asks for, clause by clause; all comparisons must hold. -/
def outline (r : Request) : Outline where
  columns := if r.columns.isEmpty then ["*"] else r.columns
  distinct := r.distinct
  tables := [r.table]
  conditions := Chain.of (r.comparisons.map (Connective.and, ·))
  groups := []
  orderings := r.orderings
  limit := r.limit
  offset := r.offset

theorem plain_calls : ∀ c ∈ (r.calls : List (SelectCall Empty)), c.Plain := by
  intro c hc
  simp only [calls, List.mem_append, List.mem_map, List.mem_singleton] at hc
  rcases hc with (((((rfl | hc) | hc) | ⟨f, -, rfl⟩) | ⟨o, -, rfl⟩) | ⟨n, -, rfl⟩) | ⟨n, -, rfl⟩
  · trivial
  · split at hc
    · obtain rfl := List.mem_singleton.1 hc
      trivial
    · obtain ⟨name, -, rfl⟩ := List.mem_map.1 hc
      trivial
  · split at hc
    · obtain rfl := List.mem_singleton.1 hc
      trivial
    · cases hc
  all_goals trivial

/-- What the calls of a request say, one group of calls after another. -/
theorem flatMap_calls {β : Type} (f : SelectCall Empty → List β) :
    r.calls.flatMap f = f (.table r.table) ++
      (if r.columns.isEmpty then ["*"] else r.columns).flatMap (fun n => f (.column n)) ++
      (if r.distinct then f .distinct else []) ++
      r.filters.flatMap (fun p => f (.restrict ⟨.and, .column p.1 .equal p.2⟩)) ++
      r.orderings.flatMap (fun o => f (.ordering o.1 o.2)) ++
      r.limit.toList.flatMap (fun n => f (.limit n)) ++
      r.offset.toList.flatMap (fun n => f (.offset n)) := by
  cases hc : r.columns <;> cases hd : r.distinct <;> simp [calls, hc, hd, List.flatMap_map]

theorem filterMap_calls {β : Type} (f : SelectCall Empty → Option β) :
    r.calls.filterMap f = r.calls.flatMap fun c => (f c).toList :=
  List.filterMap_eq_flatMap_toList _ _

theorem outline_calls : Outline.of (r.calls : List (SelectCall Empty)) = r.outline := by
  have silent {α β : Type} (l : List α) : l.flatMap (fun _ => ([] : List β)) = [] := by simp
  have single {α β : Type} (g : α → β) (l : List α) : l.flatMap (fun a => [g a]) = l.map g :=
    List.map_eq_flatMap.symm
  have hcolumns : (r.calls : List (SelectCall Empty)).flatMap SelectCall.columnNames =
      if r.columns.isEmpty then ["*"] else r.columns := by
    rw [flatMap_calls]
    simp [silent, SelectCall.columnNames]
  have hdistinct : (r.calls : List (SelectCall Empty)).any SelectCall.isDistinct = r.distinct := by
    cases hc : r.columns <;> cases hd : r.distinct <;>
      simp [calls, hc, hd, SelectCall.isDistinct]
  have htables : (r.calls : List (SelectCall Empty)).flatMap SelectCall.tableNames = [r.table] := by
    rw [flatMap_calls]
    simp [SelectCall.tableNames]
  have hconditions : (r.calls : List (SelectCall Empty)).filterMap SelectCall.comparison? =
      r.comparisons.map (Connective.and, ·) := by
    rw [filterMap_calls, flatMap_calls]
    cases hd : r.distinct <;> simp [silent, single, comparisons, SelectCall.comparison?]
  have hgroups : (r.calls : List (SelectCall Empty)).flatMap SelectCall.groupPaths = [] := by
    rw [flatMap_calls]
    simp [SelectCall.groupPaths]
  have horderings : (r.calls : List (SelectCall Empty)).flatMap SelectCall.orderingPairs =
      r.orderings := by
    rw [flatMap_calls]
    simp [silent, SelectCall.orderingPairs]
  have hlimit : ((r.calls : List (SelectCall Empty)).filterMap SelectCall.limit?).getLast? =
      r.limit := by
    rw [filterMap_calls, flatMap_calls]
    cases hl : r.limit <;> simp [silent, SelectCall.limit?]
  have hoffset : ((r.calls : List (SelectCall Empty)).filterMap SelectCall.offset?).getLast? =
      r.offset := by
    rw [filterMap_calls, flatMap_calls]
    cases hl : r.offset <;> simp [silent, SelectCall.offset?]
  rw [Outline.of, hcolumns, hdistinct, htables, hconditions, hgroups, horderings, hlimit, hoffset]
  rfl

theorem select_eq : (r.select : Select (Expr Empty)) = r.outline.select := by
  rw [select, Select.build_eq_select r.plain_calls, outline_calls]

theorem read_query : Outline.read .sqlite r.query = some r.outline := by
  rw [query, select_eq]
  exact Outline.read_query (Dialect.legible_of_shipped (by simp [Dialect.shipped])) r.outline

theorem binds_query : r.query.binds = r.comparisons.map (·.value) := by
  rw [query, select_eq, Outline.query_select]
  show ((Chain.of (r.comparisons.map (Connective.and, ·))).map Chain.values).getD [] = _
  cases r.comparisons with
  | nil => rfl
  | cons k ks => simp [Chain.of, Chain.values, Function.comp_def]

/-- The text of the query is the same whatever values the filters have. -/
theorem sql_query_congr {r₁ r₂ : Request}
    (hrest : { r₁ with filters := [] } = { r₂ with filters := [] })
    (hpaths : r₁.filters.map Prod.fst = r₂.filters.map Prod.fst) :
    r₁.query.sql = r₂.query.sql := by
  obtain ⟨⟨columns, filters₁, orderings, limit, offset, distinct⟩, table⟩ := r₁
  obtain ⟨⟨columns₂, filters₂, orderings₂, limit₂, offset₂, distinct₂⟩, table₂⟩ := r₂
  simp only [Request.mk.injEq, Clauses.mk.injEq] at hrest
  obtain ⟨⟨rfl, -, rfl, rfl, rfl, rfl⟩, rfl⟩ := hrest
  have forgotten (filters : List (String × Value)) :
      (filters.map fun f => SelectCall.restrict ⟨.and, .column f.1 .equal f.2⟩).map
          SelectCall.forgetValues =
        (filters.map Prod.fst).map fun p => .restrict ⟨.and, .column p .equal .null⟩ := by
    rw [List.map_map, List.map_map]
    rfl
  refine Expr.sql_of_alike ?_ .sqlite
  rw [Expr.relabel_select, Expr.relabel_select, select, select, Select.map_build, Select.map_build]
  simp only [calls, List.map_append, forgotten, hpaths]

/-- A request that is accepted is what its options ask for, in whatever ways they are written. What
the query of a request says is what the texts of its filters and orderings say, and the values are
those of the filters. What stands behind the first equals sign of a filter does not change the text. -/
theorem query_says_what_was_asked :
    (∀ (given : List (Setting QueryOption)) (written : List (List String)) (r : Request),
      List.Forall₂ (Written QueryOption.flags) given written →
      ofArguments written.flatten = .ok r → r.AskedBy given) ∧
    (∀ (r : Request) (filters orderings : List String),
      Reads readFilter filters r.filters → Reads readOrdering orderings r.orderings →
      ∃ conditions : List Comparison,
        List.Forall₂ Filters filters conditions ∧ List.Forall₂ Orders orderings r.orderings ∧
        Outline.read .sqlite r.query = some
          { columns := if r.columns.isEmpty then ["*"] else r.columns
            distinct := r.distinct
            tables := [r.table]
            conditions := Chain.of (conditions.map (Connective.and, ·))
            groups := []
            orderings := r.orderings
            limit := r.limit
            offset := r.offset } ∧
        r.query.binds = conditions.map (·.value)) ∧
    ∀ (r₁ r₂ : Request) (filters₁ filters₂ : List String),
      Reads readFilter filters₁ r₁.filters → Reads readFilter filters₂ r₂.filters →
      List.Forall₂ SamePath filters₁ filters₂ →
      { r₁ with filters := [] } = { r₂ with filters := [] } → r₁.query.sql = r₂.query.sql := by
  refine ⟨fun given written r h => askedBy_written h, fun r filters orderings hf ho => ?_,
    fun r₁ r₂ filters₁ filters₂ h₁ h₂ hpaths hrest => ?_⟩
  · refine ⟨r.comparisons, ?_, ho.imp fun _ _ => orders_of_readOrdering, r.read_query,
      r.binds_query⟩
    exact List.forall₂_map_right_iff.2 (hf.imp fun _ _ => filters_of_readFilter)
  · exact sql_query_congr hrest (paths_of_samePath h₁ h₂ hpaths)

/-- The first equals sign and the last colon count, wherever there are more. -/
theorem query_of_flags :
    let r : Request :=
      { table := "t", filters := [("x", .text "=v")], orderings := [("p:q", .descending)] }
    let r' : Request :=
      { table := "t", filters := [("x", .text "w")], orderings := [("p:q", .descending)] }
    let given : List (Setting QueryOption) := [⟨QueryOption.table.flag, "t"⟩,
      ⟨QueryOption.filter.flag, "x==v"⟩, ⟨QueryOption.orderBy.flag, "p:q:Desc"⟩]
    let written := [["-t", "t"], ["--filter=x==v"], ["-op:q:Desc"]]
    List.Forall₂ (Written QueryOption.flags) given written ∧
    ofArguments written.flatten = .ok r ∧ r.AskedBy given ∧
    Reads readFilter ["x==v"] r.filters ∧ Reads readOrdering ["p:q:Desc"] r.orderings ∧
    (∃ conditions, List.Forall₂ Filters ["x==v"] conditions ∧
      r.query.binds = conditions.map (·.value)) ∧
    Reads readFilter ["x=w"] r'.filters ∧ SamePath "x==v" "x=w" ∧
    r.query.sql = r'.query.sql := by
  intro r r' given written
  obtain ⟨asked, said, unchanged⟩ := query_says_what_was_asked
  have hflag (o : QueryOption) : o.flag ∈ QueryOption.flags :=
    List.mem_map_of_mem (by cases o <;> decide)
  have htable : Written QueryOption.flags ⟨QueryOption.table.flag, "t"⟩ ["-t", "t"] :=
    .apart (hflag _) (by decide) (.letter rfl) (.inr (by decide))
  have hfilter : Written QueryOption.flags ⟨QueryOption.filter.flag, "x==v"⟩ ["--filter=x==v"] :=
    .equals (s := "--filter") (hflag _) (by decide) .name "x==v"
  have hordering : Written QueryOption.flags ⟨QueryOption.orderBy.flag, "p:q:Desc"⟩ ["-op:q:Desc"] :=
    .direct (s := "-o") (v := "p:q:Desc") (hflag _) (by decide) rfl rfl (by decide) (by decide)
  have hwritten : List.Forall₂ (Written QueryOption.flags) given written :=
    .cons htable (.cons hfilter (.cons hordering .nil))
  have harguments : ofArguments written.flatten = .ok r := rfl
  have hf : Reads readFilter ["x==v"] r.filters := .cons rfl .nil
  have hg : Reads readFilter ["x=w"] r'.filters := .cons rfl .nil
  have ho : Reads readOrdering ["p:q:Desc"] r.orderings := .cons rfl .nil
  have hpath : SamePath "x==v" "x=w" := ⟨['x'], ['=', 'v'], ['w'], by decide, rfl, rfl⟩
  have hsql : r.query.sql = r'.query.sql := unchanged r r' _ _ hf hg (.cons hpath .nil) rfl
  obtain ⟨conditions, hconditions, -, -, hbinds⟩ := said r _ _ hf ho
  exact ⟨hwritten, harguments, asked given written r hwritten harguments, hf, ho,
    ⟨conditions, hconditions, hbinds⟩, hg, hpath, hsql⟩

example :
    (query
      { table := "t", filters := [("x", .text "")], orderings := [("p:q", .descending)] }).sql =
      "SELECT * FROM \"t\" WHERE \"x\" = ? ORDER BY \"p:q\" DESC" := by rfl

end Request

end BoundSql.Command
