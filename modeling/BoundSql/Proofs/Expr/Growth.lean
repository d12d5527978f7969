import BoundSql.Proofs.Added
import BoundSql.Proofs.Expr.Visit

/-! A query only grows while it is written into, although a space is written before it is known whether
anything follows. What a tree adds depends on the number of values before it and on nothing else, so
that the space taken back is the one that was written, whatever stands before it. -/

namespace BoundSql

open Writer

/-- A script fills in a text and its values in their order, also where placeholders are empty. -/
theorem Script.fills (s : Script) (d : Dialect) :
    ∃ text, s.writer.Fills d text (s.visit { value := fun x => [x] } d.returning) := by
  induction s with
  | nothing => exact ⟨_, adds_nothing.fills⟩
  | fixed s | verbatim s => exact ⟨_, (adds_text s).fills⟩
  | worded w => exact ⟨_, (adds_dialectText fun d => d.wording w).fills⟩
  | name s => exact ⟨_, (adds_name s).fills⟩
  | string s => exact ⟨_, (adds_text (Quoted.token '\'' s)).fills⟩
  | bind v => exact ⟨_, fills_bind v⟩
  | append a b iha ihb =>
    obtain ⟨ta, ha⟩ := iha
    obtain ⟨tb, hb⟩ := ihb
    exact ⟨_, ha.append hb⟩
  | returned a ih =>
    obtain ⟨t, h⟩ := ih
    exact ⟨_, h.onlyIf Dialect.returning⟩
  | spaced a ih =>
    obtain ⟨t, h⟩ := ih
    exact ⟨_, h.spaced⟩

theorem Expr.fills (e : Expr Empty) (d : Dialect) :
    ∃ text, e.writer.Fills d text (e.values d.returning) := by
  rw [← e.writer_script, values, ← e.visit_script]
  exact e.script.fills d

/-- What is done with a query that is being written. -/
inductive Writing where
  | text (s : String)
  | value (v : Value)
  | name (s : String)
  | spaced (e : Expr Empty)
  | expr (e : Expr Empty)

namespace Writing

def writer : Writing → Writer
  | text s => .text s
  | value v => .bind v
  | name s => .name s
  | spaced e => .spaced e.writer
  | expr e => e.writer

/-- The values that are recorded. -/
def values (returning : Bool) : Writing → List Value
  | value v => [v]
  | spaced e | expr e => e.values returning
  | text _ | name _ => []

def apply (d : Dialect) (q : Query) (w : Writing) : Query := w.writer d q

theorem fills (w : Writing) (d : Dialect) :
    ∃ text, w.writer.Fills d text (w.values d.returning) := by
  cases w with
  | text s => exact ⟨_, (adds_text s).fills⟩
  | value v => exact ⟨_, fills_bind v⟩
  | name s => exact ⟨_, (adds_name s).fills⟩
  | spaced e =>
    obtain ⟨t, h⟩ := e.fills d
    exact ⟨_, h.spaced⟩
  | expr e => exact e.fills d

end Writing

/-- One query is where another starts. -/
structure Query.Begins (q r : Query) : Prop where
  sql : q.sql.toList <+: r.sql.toList
  binds : q.binds <+: r.binds

namespace Query.Begins

theorem refl (q : Query) : q.Begins q := ⟨List.prefix_rfl, List.prefix_rfl⟩

theorem trans {q r t : Query} (h : q.Begins r) (g : r.Begins t) : q.Begins t :=
  ⟨h.sql.trans g.sql, h.binds.trans g.binds⟩

end Query.Begins

theorem Writer.Fills.begins {w : Writer} {d : Dialect} {text : ℕ → List Char} {values : List Value}
    (h : w.Fills d text values) (q : Query) : q.Begins (w d q) := by
  rw [h q]
  exact ⟨by simp [String.toList_append], List.prefix_append _ _⟩

namespace Writing

theorem begins_apply (d : Dialect) (q : Query) (w : Writing) : q.Begins (w.apply d q) := by
  obtain ⟨t, h⟩ := w.fills d
  exact h.begins q

theorem binds_apply (d : Dialect) (q : Query) (w : Writing) :
    (w.apply d q).binds = q.binds ++ w.values d.returning := by
  obtain ⟨t, h⟩ := w.fills d
  rw [apply, h q]

/-- The query at the start is where all later ones start. -/
theorem begins_of_mem_scanl (d : Dialect) {q r : Query} {ws : List Writing}
    (h : r ∈ ws.scanl (apply d) q) : q.Begins r := by
  induction ws generalizing q with
  | nil =>
    obtain rfl := List.mem_singleton.1 h
    exact .refl r
  | cons w ws ih =>
    rw [List.scanl_cons, List.mem_cons] at h
    obtain rfl | h := h
    · exact .refl r
    · exact (begins_apply d q w).trans (ih h)

theorem pairwise_scanl (d : Dialect) (q : Query) (ws : List Writing) :
    (ws.scanl (apply d) q).Pairwise Query.Begins := by
  induction ws generalizing q with
  | nil => exact List.pairwise_singleton _ q
  | cons w ws ih =>
    rw [List.scanl_cons, List.pairwise_cons]
    exact ⟨fun r hr => (begins_apply d q w).trans (begins_of_mem_scanl d hr), ih _⟩

theorem binds_foldl (d : Dialect) (q : Query) (ws : List Writing) :
    (ws.foldl (apply d) q).binds = q.binds ++ ws.flatMap (values d.returning) := by
  induction ws generalizing q with
  | nil => exact (List.append_nil _).symm
  | cons w ws ih =>
    rw [List.foldl_cons, ih, binds_apply, List.flatMap_cons, List.append_assoc]

end Writing

/-- Whatever is written into a query, it starts with all that it was before, and the values are
counted as they come. A tree adds the same wherever it stands behind as many values; behind a space it
adds the space and the same, or only its values if it has no text. -/
theorem queries_only_grow (d : Dialect) (q : Query) :
    (∀ ws : List Writing,
      (ws.scanl (Writing.apply d) q).Pairwise Query.Begins ∧
      (ws.foldl (Writing.apply d) q).binds = q.binds ++ ws.flatMap (Writing.values d.returning) ∧
      (ws.foldl (Writing.apply d) q).bindCount =
        (q.binds ++ ws.flatMap (Writing.values d.returning)).length) ∧
    ∀ e : Expr Empty, (∃ t v, e.writer d q = ⟨q.sql ++ t, q.binds ++ v⟩) ∧
      ∀ t v, e.writer d q = ⟨q.sql ++ t, q.binds ++ v⟩ →
        (Writing.spaced e).apply d q =
          ⟨q.sql ++ if t = "" then "" else " " ++ t, q.binds ++ v⟩ ∧
        ∀ r : Query, r.bindCount = q.bindCount → e.writer d r = ⟨r.sql ++ t, r.binds ++ v⟩ := by
  refine ⟨fun ws => ?_, fun e => ?_⟩
  · have hbinds := Writing.binds_foldl d q ws
    exact ⟨Writing.pairwise_scanl d q ws, hbinds, congrArg List.length hbinds⟩
  · obtain ⟨text, h⟩ := e.fills d
    refine ⟨⟨_, _, h q⟩, fun t v hq => ?_⟩
    obtain ⟨hsql, hbinds⟩ := Query.mk.inj ((h q).symm.trans hq)
    obtain rfl := String.append_right_inj q.sql |>.1 hsql
    obtain rfl := List.append_cancel_left hbinds
    refine ⟨?_, fun r hr => ?_⟩
    · rw [← ofList_behindSpace]
      exact h.spaced q
    · have hlength : r.binds.length = q.binds.length := hr
      rw [← hlength]
      exact h r

/-- Placeholders without text, spaces at the end of the text, and spaces that are taken back inside of
others. -/
theorem queries_grow_behind_blanks :
    let d : Dialect := { name := "blank", placeholder := fun _ => "" }
    let q : Query := ⟨"a  ", [.null]⟩
    let silent : Expr Empty := .spaced (.spaced (.bind (.bool true)))
    let spoken : Expr Empty := .list [silent, .raw "b"] (.spaced (.raw ""))
    let ws : List Writing := [.text " ", .spaced silent, .name " ", .expr spoken, .value .null]
    (ws.scanl (Writing.apply d) q).Pairwise Query.Begins ∧
    (ws.foldl (Writing.apply d) q).bindCount = 4 ∧
    silent.writer d q = ⟨q.sql ++ "", q.binds ++ [.bool true]⟩ ∧
    (Writing.spaced silent).apply d q = ⟨"a  ", [.null, .bool true]⟩ ∧
    spoken.writer d q = ⟨q.sql ++ "b", q.binds ++ [.bool true]⟩ ∧
    (Writing.spaced spoken).apply d q = ⟨"a   b", [.null, .bool true]⟩ ∧
    Query.bindCount ⟨"", [.bool false]⟩ = q.bindCount ∧
    spoken.writer d ⟨"", [.bool false]⟩ = ⟨"b", [.bool false, .bool true]⟩ := by
  intro d q silent spoken ws
  obtain ⟨run, tree⟩ := queries_only_grow d q
  have hsilent : silent.writer d q = ⟨q.sql ++ "", q.binds ++ [.bool true]⟩ := by decide +kernel
  have hspoken : spoken.writer d q = ⟨q.sql ++ "b", q.binds ++ [.bool true]⟩ := by decide +kernel
  have hcount : Query.bindCount ⟨"", [.bool false]⟩ = q.bindCount := rfl
  have behind := (tree spoken).2 "b" [.bool true] hspoken
  exact ⟨(run ws).1, (run ws).2.2, hsilent, ((tree silent).2 "" [.bool true] hsilent).1, hspoken,
    behind.1, hcount, behind.2 ⟨"", [.bool false]⟩ hcount⟩

end BoundSql
