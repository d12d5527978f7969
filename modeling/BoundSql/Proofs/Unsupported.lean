import BoundSql.Proofs.Expr.Rewrite
import Mathlib.Tactic.Tauto

/-! Clauses that a dialect does not have. A `RETURNING` that the dialect cannot write is passed over
before anything of it is written or recorded, and a lock that it has no words for takes its space
back, so a tree without these clauses, wherever they stand in it, writes the same. -/

namespace BoundSql

theorem Writer.returning_apply {d : Dialect} (h : d.returning = false) (ws : List Writer)
    (q : Query) : returning ws d q = q := by
  simp [returning, onlyIf, h]

theorem Select.writer_eq_append_locking (s : Select Writer) :
    s.writer = { s with locking := none }.writer ++ (s.segment .locking).writer := rfl

namespace Expr

variable {ν : Type}

/-- The columns to give back below a node. -/
def returned : Expr ν → List (Expr ν)
  | insert s => s.returning
  | update s => s.returning
  | delete s => s.returning
  | _ => []

def isLock (mode : LockMode) : Expr ν → Bool
  | lock m => m = mode
  | _ => false

/-- The expression in the locking slot of a query. -/
def locking : Expr ν → Option (Expr ν)
  | select s => s.locking
  | _ => none

/-- A statement that gives no columns back. -/
def dropReturning : Expr ν → Expr ν
  | insert s => insert { s with returning := [] }
  | update s => update { s with returning := [] }
  | delete s => delete { s with returning := [] }
  | e => e

/-- A query that does not lock its rows in one mode. -/
def dropLock (mode : LockMode) : Expr ν → Expr ν
  | select s => select { s with locking := s.locking.filter (!·.isLock mode) }
  | e => e

/-- The tree with nothing to give back in any of its statements. -/
def withoutReturning (e : Expr ν) : Expr ν := e.rewrite dropReturning

/-- The tree with no lock of one mode in the locking slot of any of its queries. -/
def withoutLock (mode : LockMode) (e : Expr ν) : Expr ν := e.rewrite (dropLock mode)

theorem returned_dropReturning (e : Expr ν) : e.dropReturning.returned = [] := by
  cases e <;> rfl

theorem children_dropReturning (e : Expr ν) : e.dropReturning.children ⊆ e.children := by
  intro c hc
  cases e with
  | insert s =>
    simp only [dropReturning, children, Insert.parts, List.append_nil, List.mem_cons,
      List.mem_append] at hc ⊢
    tauto
  | update s =>
    simp only [dropReturning, children, Update.parts, List.append_nil, List.mem_cons,
      List.mem_append] at hc ⊢
    tauto
  | delete s =>
    simp only [dropReturning, children, Delete.parts, List.append_nil, List.mem_cons,
      List.mem_append] at hc ⊢
    tauto
  | _ => exact hc

theorem locking_dropLock (mode : LockMode) (e : Expr ν) :
    ∀ l ∈ (e.dropLock mode).locking, l.isLock mode = false := by
  cases e with
  | select s =>
    intro l hl
    have := (Option.filter_eq_some_iff.1 hl).2
    simpa using this
  | _ => exact nofun

theorem children_dropLock (mode : LockMode) (e : Expr ν) :
    (e.dropLock mode).children ⊆ e.children := by
  intro c hc
  cases e with
  | select s =>
    have kept : c ∈ (s.locking.filter (!·.isLock mode)).toList → c ∈ s.locking.toList := by
      intro h
      have := Option.filter_eq_some_iff.1 (Option.mem_toList.1 h)
      exact Option.mem_toList.2 this.1
    simp only [dropLock, children, Select.parts, List.mem_append] at hc ⊢
    exact hc.imp_right kept
  | _ => exact hc

variable {d : Dialect} {mode : LockMode}

theorem writer_dropReturning (h : d.returning = false) (e : Expr Empty) :
    e.dropReturning.writer d = e.writer d := by
  have unwritten (w : Writer) (ws vs : List Writer) (q : Query) :
      (w ++ Writer.returning ws) d q = (w ++ Writer.returning vs) d q := by
    rw [Writer.append_apply, Writer.append_apply, Writer.returning_apply h,
      Writer.returning_apply h]
  funext q
  cases e with
  | insert s =>
    rw [dropReturning, writer, writer, insertWriters_eq_map, insertWriters_eq_map]
    exact unwritten _ _ _ q
  | update s =>
    rw [dropReturning, writer, writer, updateWriters_eq_map, updateWriters_eq_map]
    exact unwritten _ _ _ q
  | delete s =>
    rw [dropReturning, writer, writer, deleteWriters_eq_map, deleteWriters_eq_map]
    exact unwritten _ _ _ q
  | _ => rfl

theorem dropLock_select (mode : LockMode) (s : Select (Expr ν)) :
    (select s).dropLock mode = select s ∨
      s.locking = some (lock mode) ∧
        (select s).dropLock mode = select { s with locking := none } := by
  obtain ⟨columns, tables, distinct, joins, predicate, groupBy, having, orderBy, limit, offset,
    locking⟩ := s
  cases locking with
  | none => exact .inl rfl
  | some l =>
    cases l with
    | lock m =>
      by_cases hm : m = mode
      · subst hm
        right
        simp [dropLock, isLock]
      · left
        simp [dropLock, isLock, hm]
    | _ => exact .inl rfl

theorem writer_dropLock (h : (d.lockText mode).getD "" = "") (e : Expr Empty) :
    (e.dropLock mode).writer d = e.writer d := by
  cases e with
  | select s =>
    rcases dropLock_select mode s with hs | ⟨hl, hs⟩
    · rw [hs]
    · funext q
      rw [hs, writer, writer, selectWriters_eq_map, selectWriters_eq_map,
        Select.writer_eq_append_locking (s.map writer), Writer.append_apply]
      simp only [Select.segment, Select.map, hl]
      exact (Writer.spaced_of_silent (lockWriter_of_empty h) _).symm
  | _ => rfl

/-- Where the dialect cannot give columns back, nothing changes when there are none to give back
in any statement of a tree, and where it has no words for a lock, nothing changes when it stands in
no query. -/
theorem unsupported_clauses_leave_no_trace (e : Expr Empty) (d : Dialect) (q : Query) :
    (d.returning = false →
      e.withoutReturning.Throughout (·.returned = []) ∧
      e.withoutReturning.writer d q = e.writer d q) ∧
    ∀ mode, d.lockText mode = none ∨ d.lockText mode = some "" →
      (e.withoutLock mode).Throughout (fun x => ∀ l ∈ x.locking, l.isLock mode = false) ∧
      (e.withoutLock mode).writer d q = e.writer d q := by
  refine ⟨fun h => ⟨?_, ?_⟩, fun mode h => ⟨?_, ?_⟩⟩
  · exact throughout_rewrite returned_dropReturning children_dropReturning e
  · exact congrFun (writer_rewrite (writer_dropReturning h) e) q
  · exact throughout_rewrite (locking_dropLock mode) (children_dropLock mode) e
  · have hempty : (d.lockText mode).getD "" = "" := by
      rcases h with h | h <;> rw [h] <;> rfl
    exact congrFun (writer_rewrite (writer_dropLock hempty) e) q

/-- A value that stands below nodes that are not written takes no position among the binds. -/
theorem unsupported_clauses_of_nested_statements :
    let e : Expr Empty :=
      commaList [group (insert { table := identifier "t", returning := [bind .null] }),
        group (select { columns := [bind (.bool true)], locking := some (lock .share) })]
    Dialect.generic.returning = false ∧
    e.withoutReturning.writer .generic {} = ⟨"(INSERT INTO \"t\"), (SELECT ? FOR SHARE)",
      [.bool true]⟩ ∧
    Dialect.sqlite.lockText .share = none ∧
    (e.withoutLock .share).writer .sqlite {} = ⟨"(INSERT INTO \"t\" RETURNING ?), (SELECT ?)",
      [.null, .bool true]⟩ := by
  intro e
  have generic := (unsupported_clauses_leave_no_trace e .generic {}).1 rfl
  have sqlite := (unsupported_clauses_leave_no_trace e .sqlite {}).2 .share (.inl rfl)
  exact ⟨rfl, generic.2.trans (by decide +kernel), rfl, sqlite.2.trans (by decide +kernel)⟩

end Expr

end BoundSql
