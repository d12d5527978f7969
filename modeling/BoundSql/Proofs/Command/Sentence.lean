import BoundSql.Proofs.Command.Request
import BoundSql.Proofs.Sqlite.Grammar

/-! Whether the query of a request is a sentence of the grammar of simple queries. It is one up to its
limit, whatever is asked for; rows that are skipped stand behind a limit only if there is one. -/

namespace BoundSql

open Sqlite Sqlite.Grammar
open scoped Computability

/-- The name of the column that a path leads to. -/
def columnName (path : String) : String := ((Split.first? '.' path).map Prod.snd).getD path

/-- A path to a named column is an expression. -/
theorem says_pathText {path : String} (h : columnName path ≠ "*") :
    Says (pathText (Quoted.token '\"') path) expr := by
  rcases hp : Split.first? '.' path with _ | ⟨t, n⟩
  · have hn : path ≠ "*" := by simpa [columnName, hp] using h
    have htext : pathText (Quoted.token '\"') path = (Quoted.token '\"' path).toList := by
      rw [pathText, hp]
      exact if_neg hn
    rw [htext]
    exact (says_name path).imp fun ts hts => IsExpr.column hts
  · have hn : n ≠ "*" := by simpa [columnName, hp] using h
    have htext : pathText (Quoted.token '\"') path =
        (Quoted.token '\"' t).toList ++ '.' :: (Quoted.token '\"' n).toList := by
      simp only [pathText, hp]
      rw [nameText, if_neg hn]
    rw [htext]
    exact (says_point t (says_name n)).imp fun ts hts => IsExpr.columnOf hts

/-- A path to any column, or to all of them, can be selected. -/
theorem says_selected (path : String) : Says (pathText (Quoted.token '\"') path) resultColumn := by
  by_cases h : columnName path = "*"
  · rcases hp : Split.first? '.' path with _ | ⟨t, n⟩
    · obtain rfl : path = "*" := by simpa [columnName, hp] using h
      have hstar : Says ['*'] (sign '*') := says_sign (by decide)
      exact hstar.imp (le_self_add.trans le_self_add)
    · obtain rfl : n = "*" := by simpa [columnName, hp] using h
      have htext : pathText (Quoted.token '\"') path = (Quoted.token '\"' t).toList ++ '.' :: ['*'] := by
        simp only [pathText, hp]
        rfl
      rw [htext]
      exact (says_point t (says_sign (by decide))).imp (le_add_self.trans le_self_add)
  · exact (says_pathText h).imp le_add_self

theorem says_comparison {k : Comparison} (hop : k.op = .equal) (h : columnName k.path ≠ "*")
    (n : Nat) : Says (k.text .sqlite n) expr := by
  have hequal := (says_sign (c := '=') (by decide)).spaced
  have hmark := (says_sign (c := '?') (by decide)).spaced
  have hle : expr * (sign '=' * sign '?') ≤ expr := by
    rintro ts hts
    obtain ⟨a, ha, us, hus, rfl⟩ := Language.mem_mul.1 hts
    obtain ⟨e, he, b, hb, rfl⟩ := Language.mem_mul.1 hus
    exact IsExpr.equal ha he (.placeholder hb)
  have hplaceholder : (Dialect.sqlite.placeholder n).toList = ['?'] := by
    show "?".toList = ['?']
    rfl
  have htext : k.text .sqlite n = pathText (Quoted.token '\"') k.path ++ ([' ', '='] ++ [' ', '?']) := by
    simp only [Comparison.text, hop, hplaceholder, List.append_assoc]
    rfl
  rw [htext]
  exact ((says_pathText h).append (hequal.append hmark)).imp hle

/-- Comparisons for equality, all of which must hold. -/
theorem says_chain {ks : List Comparison} {c : Chain}
    (hc : Chain.of (ks.map (Connective.and, ·)) = some c)
    (hks : ∀ k ∈ ks, k.op = .equal ∧ columnName k.path ≠ "*") : Says (c.text .sqlite) expr := by
  cases ks with
  | nil => cases hc
  | cons k ks =>
    obtain rfl : ⟨k, ks.map (Connective.and, ·)⟩ = c := Option.some.inj hc
    have hfirst := hks k List.mem_cons_self
    have hrest : ∀ i ∈ (ks.map (Connective.and, ·)).zipIdx 2,
        Continues (Comparison.restText .sqlite i) (keyword "AND" * expr) := by
      rintro ⟨⟨op, k'⟩, n⟩ hi
      obtain ⟨k', hk', heq⟩ := List.mem_map.1 (List.fst_mem_of_mem_zipIdx hi)
      cases heq
      have h := hks k' (.tail k hk')
      have htext : Comparison.restText .sqlite ((.and, k'), n) =
          ' ' :: ("AND".toList ++ ' ' :: k'.text .sqlite n) := by
        simp only [Comparison.restText, List.append_assoc]
        rfl
      rw [htext]
      exact ((says_comparison h.1 h.2 n).behind (by decide)).spaced
    have hle : expr * (keyword "AND" * expr) ≤ expr := by
      rintro ts hts
      obtain ⟨a, ha, us, hus, rfl⟩ := Language.mem_mul.1 hts
      obtain ⟨e, he, b, hb, rfl⟩ := Language.mem_mul.1 hus
      exact IsExpr.and ha he hb
    exact ((says_comparison hfirst.1 hfirst.2 1).append (continues_flatMap hrest)).imp
      (mul_kstar_le_self hle)

theorem says_orderingText {o : String × Direction} (h : columnName o.1 ≠ "*") :
    Says (orderingText (Quoted.token '\"') o) orderingTerm := by
  have hdirection : Continues (' ' :: o.2.text.toList) (keyword "ASC" + keyword "DESC") := by
    cases o.2 with
    | ascending => exact (says_keyword (w := "ASC") (by decide)).spaced.imp le_self_add
    | descending => exact (says_keyword (w := "DESC") (by decide)).spaced.imp le_add_self
  have htext : orderingText (Quoted.token '\"') o = pathText (Quoted.token '\"') o.1 ++ ' ' :: o.2.text.toList := by
    simp only [orderingText, List.append_assoc]
    rfl
  rw [htext]
  exact (says_pathText h).append hdirection.optionally

theorem says_countText (n : UInt64) : Says (countText n) number := by
  rw [countText, Nat.toString_eq_ofList_toDigits, String.toList_ofList]
  exact says_number Nat.toDigits_ne_nil Reader.isDigit_of_mem_toDigits

namespace Command.Request

/-- No path of the filters and orderings stands for all columns. -/
structure Named (r : Request) : Prop where
  filters : ∀ f ∈ r.filters, columnName f.1 ≠ "*"
  orderings : ∀ o ∈ r.orderings, columnName o.1 ≠ "*"

variable {r : Request}

theorem toList_query (r : Request) : r.query.sql.toList = r.outline.text .sqlite := by
  rw [query, select_eq, Outline.query_select, String.toList_ofList]

theorem says_opening (r : Request) : Says (r.outline.opening .sqlite)
    (keyword "SELECT" * optionally (keyword "DISTINCT") * listOf resultColumn *
      (keyword "FROM" * name)) := by
  have hdistinct : Continues (if r.distinct then ' ' :: "DISTINCT".toList else [])
      (optionally (keyword "DISTINCT")) := by
    cases r.distinct
    · exact continues_optionally_nil
    · exact (says_keyword (by decide)).spaced.optionally
  have hcolumns :
      Says (commas (r.outline.columns.map (pathText (Quoted.token '\"')))) (listOf resultColumn) :=
    says_commas (by cases hc : r.columns <;> simp [outline, hc]) fun path _ => says_selected path
  have htable := ((says_name r.table).behind (w := "FROM") (by decide)).spaced
  have := (((says_keyword (w := "SELECT") (by decide)).append hdistinct).append
    hcolumns.spaced).append htable
  have htext : r.outline.opening .sqlite = "SELECT".toList ++
      (if r.distinct then ' ' :: "DISTINCT".toList else []) ++
      ' ' :: commas (r.outline.columns.map (pathText (Quoted.token '\"'))) ++
      ' ' :: ("FROM".toList ++ ' ' :: (Quoted.token '\"' r.table).toList) := by
    have htables : clauseText " FROM " (r.outline.tables.map fun n =>
        (Quoted.token '\"' n).toList) = " FROM ".toList ++ (Quoted.token '\"' r.table).toList :=
      congrArg (" FROM ".toList ++ ·) (List.intercalate_singleton ..)
    have hquote : Dialect.sqlite.quoted = Quoted.token '\"' := rfl
    have hflag : r.outline.distinct = r.distinct := rfl
    unfold Outline.opening
    rw [hflag, hquote, htables]
    simp only [List.append_assoc]
    generalize commas (r.outline.columns.map (pathText (Quoted.token '\"'))) = columns
    generalize (Quoted.token '\"' r.table).toList = table
    cases r.distinct <;> rfl
  rw [htext]
  exact this

theorem continues_conditions (h : r.Named) :
    Continues (optionText " WHERE " (r.outline.conditions.map (Chain.text .sqlite)))
      (optionally (keyword "WHERE" * expr)) := by
  cases hc : r.outline.conditions with
  | none => exact continues_optionally_nil
  | some c =>
    have hks : ∀ k ∈ r.comparisons, k.op = .equal ∧ columnName k.path ≠ "*" := by
      intro k hk
      obtain ⟨f, hf, rfl⟩ := List.mem_map.1 hk
      exact ⟨rfl, h.filters f hf⟩
    exact ((says_chain hc hks).behind (w := "WHERE") (by decide)).spaced.optionally

theorem continues_orderings (h : r.Named) :
    Continues (clauseText " ORDER BY " (r.orderings.map (orderingText (Quoted.token '\"'))))
      (optionally (keyword "ORDER" * (keyword "BY" * listOf orderingTerm))) := by
  cases ho : r.orderings with
  | nil => exact continues_optionally_nil
  | cons o os =>
    have hterms : Says (commas ((o :: os).map (orderingText (Quoted.token '\"')))) (listOf orderingTerm) :=
      says_commas (List.cons_ne_nil o os) fun i hi => says_orderingText (h.orderings i (ho ▸ hi))
    exact ((hterms.behind (w := "BY") (by decide)).behind (w := "ORDER")
      (by decide)).spaced.optionally

/-- What stands before the limit. -/
def unlimitedText (r : Request) : List Char :=
  r.outline.opening .sqlite ++
    optionText " WHERE " (r.outline.conditions.map (Chain.text .sqlite)) ++
    clauseText " ORDER BY " (r.orderings.map (orderingText (Quoted.token '\"')))

theorem says_unlimited (h : r.Named) : Says r.unlimitedText unlimited :=
  ((says_opening r).append (continues_conditions h)).append (continues_orderings h)

theorem text_outline (r : Request) : r.outline.text .sqlite =
    r.unlimitedText ++ (optionText " LIMIT " (r.limit.map countText) ++
      optionText " OFFSET " (r.offset.map countText)) := by
  simp only [Outline.text, Outline.closing, unlimitedText, List.append_assoc]
  rfl

theorem continues_offset (n : UInt64) :
    Continues (" OFFSET ".toList ++ countText n) (keyword "OFFSET" * number) :=
  ((says_countText n).behind (w := "OFFSET") (by decide)).spaced

theorem continues_offset? (o : Option UInt64) :
    Continues (optionText " OFFSET " (o.map countText)) (optionally (keyword "OFFSET" * number)) := by
  cases o with
  | none => exact continues_optionally_nil
  | some n => exact (continues_offset n).optionally

theorem simple_of_limit (h : r.Named) (hl : r.offset.isSome → r.limit.isSome) :
    tokens r.query.sql.toList ∈ simpleSelect := by
  rw [toList_query, text_outline]
  refine ((says_unlimited h).append ?_).mem
  cases hlimit : r.limit with
  | none =>
    have : r.offset = none := by simpa [hlimit] using hl
    rw [this]
    exact continues_optionally_nil
  | some n =>
    have hskipped := (says_countText n).append (continues_offset? r.offset)
    exact (hskipped.behind (w := "LIMIT") (by decide)).spaced.optionally

/-- Without a limit, no limit stands in front of the rows that are skipped. -/
theorem not_simple_of_offset (h : r.Named) (ho : r.offset.isSome) (hl : r.limit = none) :
    tokens r.query.sql.toList ∉ simpleSelect := by
  obtain ⟨m, hm⟩ := Option.isSome_iff_exists.1 ho
  have htext : r.query.sql.toList = r.unlimitedText ++ (" OFFSET ".toList ++ countText m) := by
    rw [toList_query, text_outline, hl, hm]
    rfl
  rw [htext]
  have hmem := ((says_unlimited h).append (continues_offset m)).mem
  intro hsimple
  have hlacks : Lacks "LIMIT" (unlimited * (keyword "OFFSET" * number)) :=
    (lacks_unlimited (by decide)).mul ((lacks_keyword (by decide)).mul (lacks_number (by decide)))
  refine hlacks _ hmem (has_limit_of_simpleSelect hsimple ?_)
  obtain ⟨us, -, vs, hvs, heq⟩ := Language.mem_mul.1 hmem
  obtain ⟨ks, ⟨s, rfl, hs⟩, ns, -, rfl⟩ := Language.mem_mul.1 hvs
  rw [← heq]
  exact ⟨s, List.mem_append_right us List.mem_cons_self, hs⟩

theorem loose_query (h : r.Named) : tokens r.query.sql.toList ∈
    unlimited * (optionally (keyword "LIMIT" * number) * optionally (keyword "OFFSET" * number)) := by
  have hlimit : Continues (optionText " LIMIT " (r.limit.map countText))
      (optionally (keyword "LIMIT" * number)) := by
    cases r.limit with
    | none => exact continues_optionally_nil
    | some n => exact ((says_countText n).behind (w := "LIMIT") (by decide)).spaced.optionally
  rw [toList_query, text_outline]
  exact ((says_unlimited h).append (hlimit.append (continues_offset? r.offset))).mem

/-- The query of a request is a simple query up to its limit, followed by a limit and rows to skip as
far as they are given. It is a sentence of the grammar, in which rows are skipped as part of a limit,
exactly when no rows are skipped without a limit. -/
theorem simple_iff_limit_of_offset (r : Request) (h : r.Named) :
    tokens r.query.sql.toList ∈ unlimited *
      (optionally (keyword "LIMIT" * number) * optionally (keyword "OFFSET" * number)) ∧
    (tokens r.query.sql.toList ∈ simpleSelect ↔ (r.offset.isSome → r.limit.isSome)) := by
  refine ⟨loose_query h, fun hsimple ho => ?_, simple_of_limit h⟩
  by_contra hl
  exact not_simple_of_offset h ho (Option.not_isSome_iff_eq_none.1 hl) hsimple

/-- All the options at once. -/
theorem simple_of_all_options :
    let r : Request :=
      { table := "t", columns := ["*", "u.a"], filters := [("b", .int 1), ("u.c", .null)],
        orderings := [("a", .descending), ("b.*x", .ascending)], limit := some 3,
        offset := some 5, distinct := true }
    r.Named ∧ r.query.sql = "SELECT DISTINCT *, \"u\".\"a\" FROM \"t\" WHERE \"b\" = ? AND " ++
      "\"u\".\"c\" = ? ORDER BY \"a\" DESC, \"b\".\"*x\" ASC LIMIT 3 OFFSET 5" ∧
    tokens r.query.sql.toList ∈ simpleSelect := by
  intro r
  have h : r.Named := ⟨by decide, by decide⟩
  exact ⟨h, by decide +kernel, (simple_iff_limit_of_offset r h).2.2 fun _ => rfl⟩

/-- Rows can be skipped without a limit, and then the query is no sentence of the grammar. -/
theorem not_simple_of_offset_alone :
    let r : Request := { table := "t", offset := some 5 }
    ofArguments ["-t", "t", "--offset", "5"] = .ok r ∧ r.Named ∧
      r.query.sql = "SELECT * FROM \"t\" OFFSET 5" ∧
      tokens r.query.sql.toList ∉ simpleSelect := by
  intro r
  have h : r.Named := ⟨nofun, nofun⟩
  exact ⟨rfl, h, by decide +kernel, not_simple_of_offset h rfl rfl⟩

end Command.Request

end BoundSql
