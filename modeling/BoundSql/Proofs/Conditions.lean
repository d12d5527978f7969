import Mathlib.Data.Fintype.Order
import BoundSql.Proofs.Builder.Filtering
import BoundSql.Proofs.Expr.Nesting

/-! What the conditions of a statement mean. The calls join each condition to all before it, but the
text has no parentheses, so that it is read with AND tighter than OR. -/

namespace BoundSql

/-- A condition that stands for itself: a comparison of a column with a value, or a group. -/
inductive Expr.Atomic {ν : Type} : Expr ν → Prop
  | comparison (table : Option String) (name : String) {op : Operator} (value : Value)
    (h : op ≠ .and ∧ op ≠ .or) : Atomic (.binary (.column table name) op (.bind value))
  | group (e : Expr ν) : Atomic (.group e)

theorem Condition.atomic_column {ν : Type} (path : String) {op : Operator} (value : Value)
    (h : op ≠ .and ∧ op ≠ .or) : (column path op value : Condition ν).toExpr.Atomic := by
  rw [toExpr, Expr.comparison, Expr.ofPath]
  split
  · exact .comparison _ _ value h
  · exact .comparison _ _ value h

namespace Restriction

variable {ν : Type} [Writable ν]

/-- Conditions behind others, each after its connective. -/
def restWriter : List (Restriction ν) → Writer
  | [] => .nothing
  | r :: rs => .text " " ++ .text r.connective.operator.text ++ .text " " ++
      r.condition.toExpr.writer ++ restWriter rs

theorem writer_foldl (rs : List (Restriction ν)) (e : Expr ν) :
    (rs.foldl (fun e r => .binary e r.connective.operator r.condition.toExpr) e).writer =
      e.writer ++ restWriter rs := by
  induction rs generalizing e with
  | nil => rfl
  | cons r rs ih => exact ih _

/-- The pieces of conditions behind others. -/
def restPieces (d : Dialect) (rs : List (Restriction Empty)) : List Piece :=
  rs.flatMap fun r => [.fixed " ", .fixed r.connective.operator.text, .fixed " "] ++
    r.condition.toExpr.pieces d

theorem pieces_foldl (d : Dialect) (rs : List (Restriction Empty)) (e : Expr Empty) :
    (rs.foldl (fun e r => .binary e r.connective.operator r.condition.toExpr) e).pieces d =
      e.pieces d ++ restPieces d rs := by
  induction rs generalizing e with
  | nil => exact (List.append_nil _).symm
  | cons r rs ih =>
    rw [List.foldl_cons, ih]
    simp [restPieces, Expr.pieces, Script.pieces]

end Restriction

open Piece

theorem Expr.Atomic.sealed {e : Expr Empty} (h : e.Atomic) (d : Dialect) :
    Sealed 0 (e.pieces d) := by
  cases h with
  | group e => exact Sealed.parenthesized e.nested_script
  | comparison t n v hop =>
    rename_i op
    have leaf {p : Piece} (hd : ∀ n, p.depth n = n) (hc : p.connective? = none) : Sealed 0 [p] :=
      sealed_singleton hd fun _ => hc
    have hname : Sealed 0 ((if n = "*" then Script.fixed "*" else .name n).pieces d) := by
      split
      · exact leaf (p := .fixed "*") (fun _ => rfl) rfl
      · exact leaf (p := .name n) (fun _ => rfl) rfl
    have hcolumn : Sealed 0 ((columnScript t n).pieces d) := by
      cases t with
      | none => exact hname
      | some t =>
        exact ((leaf (p := .name t) (fun _ => rfl) rfl).append
          (leaf (p := .fixed ".") (fun _ => rfl) rfl)).append hname
    have hspace : Sealed 0 [.fixed " "] := leaf (fun _ => rfl) rfl
    have hoperator : Sealed 0 [.fixed op.text] := by
      refine leaf (fun n => by simp [depth, op.isFlat_text.1, op.isFlat_text.2]) ?_
      obtain ⟨hand, hor⟩ := hop
      cases op with
      | and => exact absurd rfl hand
      | or => exact absurd rfl hor
      | _ => rfl
    exact (((hcolumn.append hspace).append hoperator).append hspace).append
      (leaf (p := .bind v) (fun _ => rfl) rfl)

namespace Restriction

/-- A condition with its connective, as it stands in the text. -/
def cutOut (d : Dialect) (r : Restriction Empty) : Connective × List Piece :=
  (r.connective, solid (r.condition.toExpr.pieces d))

variable {d : Dialect} {rs : List (Restriction Empty)}

theorem cut_restPieces (h : ∀ r ∈ rs, r.condition.toExpr.Atomic) :
    cut 0 (restPieces d rs) = ([], rs.map (cutOut d)) := by
  induction rs with
  | nil => rfl
  | cons r rs ih =>
    have hr := (h r List.mem_cons_self).sealed d 0 (restPieces d rs) le_rfl
    rw [ih fun r hr => h r (.tail _ hr), List.append_nil] at hr
    show cut 0 (.fixed " " :: .fixed r.connective.operator.text :: .fixed " " ::
      (r.condition.toExpr.pieces d ++ restPieces d rs)) = _
    rw [cut_space, cut_connective, cut_space, hr]
    rfl

/-- The conditions are cut out of the text as they came, each behind its connective. -/
theorem words_joined {e : Expr Empty} (he : joined rs = some e)
    (h : ∀ r ∈ rs, r.condition.toExpr.Atomic) :
    words (e.pieces d) = Word.sequence (rs.map (cutOut d)) := by
  cases rs with
  | nil => cases he
  | cons r rs =>
    obtain rfl := Option.some.inj he
    have hr := (h r List.mem_cons_self).sealed d 0 (restPieces d rs) le_rfl
    rw [cut_restPieces fun r hr => h r (.tail _ hr), List.append_nil] at hr
    rw [pieces_foldl, words, hr]
    rfl

end Restriction

namespace Filtering

variable {ν : Type} [Writable ν] {f : Filtering ν} {r : Restriction ν} {rs : List (Restriction ν)}

/-- The conditions stand behind the first one, in the order of the calls, with nothing before it. -/
theorem writer_of_restrictions (h : f.restrictions = r :: rs) :
    ∃ e, f.predicate = some e ∧
      e.writer = r.condition.toExpr.writer ++ Restriction.restWriter rs ∧
      f.statement.writer = f.others.before ++ .text " WHERE " ++ e.writer ++ f.others.after := by
  have hpredicate := f.predicate_eq_joined
  rw [h] at hpredicate
  refine ⟨_, hpredicate, Restriction.writer_foldl rs _, ?_⟩
  rw [writer_statement, before_others, after_others, hpredicate]
  rfl

theorem writer_others (f : Filtering ν) :
    f.others.statement.writer = f.others.before ++ f.others.after := by
  rw [writer_statement, predicate_eq_joined, restrictions_others]
  rfl

omit [Writable ν] in
theorem statement_of_first {g : Filtering ν} (h : f.restrictions = r :: rs)
    (hothers : g.others = f.others) {c : Connective}
    (hfirst : g.restrictions = ⟨c, r.condition⟩ :: rs) : g.statement = f.statement := by
  rw [statement_eq_withPredicate, statement_eq_withPredicate, hothers, hfirst, h]
  rfl

/-- Conditions stand in the text in the order of their calls, each once and behind its connective,
but for the first connective, which is lost. The text is read with AND tighter than OR: it holds if
all conditions of some run hold. That is what joining each condition to all before it says exactly if
no AND comes behind an OR that joins something. -/
theorem meaning_of_conditions (f : Filtering ν) (r : Restriction ν) (rs : List (Restriction ν))
    (h : f.restrictions = r :: rs) :
    (∃ e, f.predicate = some e ∧
      e.writer = r.condition.toExpr.writer ++ Restriction.restWriter rs ∧
      f.statement.writer = f.others.before ++ .text " WHERE " ++ e.writer ++ f.others.after) ∧
    f.others.statement.writer = f.others.before ++ f.others.after ∧
    (∀ (g : Filtering ν) (c : Connective), g.others = f.others →
      g.restrictions = ⟨c, r.condition⟩ :: rs → g.statement = f.statement) ∧
    (∀ (d : Dialect) (g : Filtering Empty) (e : Expr Empty), d.Visible → g.predicate = some e →
      (∀ r ∈ g.restrictions, r.condition.toExpr.Atomic) →
      (∀ q, e.writer d q = q.addPieces d (e.pieces d)) ∧
      words (e.pieces d) = Word.sequence (g.restrictions.map (Restriction.cutOut d)) ∧
      ∀ (α : Type) [Lattice α] [BoundedOrder α] (v : List Piece → α) (x : α),
        Disjunction ((words (e.pieces d)).map (Word.map v)) x ↔
          x = someRun (g.restrictions.map fun r => (r.connective, v (r.cutOut d).2))) ∧
    ∀ (α : Type) [Lattice α] [BoundedOrder α],
      (∀ cs : List (Connective × α), cs.map Prod.fst = f.restrictions.map (·.connective) →
        ∀ x, Disjunction (Word.sequence cs) x ↔ x = someRun cs) ∧
      (Nontrivial α →
        ((∀ cs : List (Connective × α), cs.map Prod.fst = f.restrictions.map (·.connective) →
            someRun cs = leftToRight cs) ↔
          Connective.AndsFirst (f.restrictions.map (·.connective)))) := by
  refine ⟨writer_of_restrictions h, f.writer_others, fun g c hothers => statement_of_first h hothers,
    fun d g e hd he hatomic => ?_, fun α _ _ => ⟨fun cs hcs x => ?_, fun _ => ?_⟩⟩
  · rw [predicate_eq_joined] at he
    have hwords := Restriction.words_joined (d := d) he hatomic
    refine ⟨e.writer_apply hd, hwords, fun α _ _ v x => ?_⟩
    rw [hwords, Word.map_sequence, List.map_map]
    refine Word.disjunction_sequence_iff (fun hnil => ?_) x
    rw [List.map_eq_nil_iff.1 hnil] at he
    cases he
  · refine Word.disjunction_sequence_iff (fun hnil => ?_) x
    rw [hnil, h] at hcs
    cases hcs
  · exact leftToRight_eq_iff _

/-- One of several conditions is a group, and the AND in front of it comes behind an OR. -/
theorem meaning_of_three_conditions :
    let r : Restriction Empty := ⟨.and, .column "a" .equal (.int 1)⟩
    let rs : List (Restriction Empty) :=
      [⟨.or, .column "u.b" .less (.int 2)⟩, ⟨.and, .expr (.group (.raw "c OR d"))⟩]
    let f : Filtering Empty := .update "t"
      (.restrict r :: .assign "x" .null :: .returning ["x"] :: rs.map .restrict)
    f.restrictions = r :: rs ∧
    (∀ r ∈ f.restrictions, r.condition.toExpr.Atomic) ∧
    Query.of .postgres f.statement =
      ⟨"UPDATE \"t\" SET \"x\" = $1 WHERE \"a\" = $2 OR \"u\".\"b\" < $3 AND (c OR d) " ++
        "RETURNING \"x\"", [.null, .int 1, .int 2]⟩ ∧
    (∀ e ∈ f.predicate, Piece.words (e.pieces .postgres) =
      Word.sequence ((r :: rs).map (Restriction.cutOut .postgres))) ∧
    ¬∀ cs : List (Connective × Bool), cs.map Prod.fst = [.and, .or, .and] →
      someRun cs = leftToRight cs := by
  intro r rs f
  have h : f.restrictions = r :: rs := rfl
  have hatomic : ∀ r ∈ f.restrictions, r.condition.toExpr.Atomic := by
    rw [h]
    simp only [rs, r, List.forall_mem_cons]
    exact ⟨Condition.atomic_column _ _ (by decide), Condition.atomic_column _ _ (by decide),
      .group _, nofun⟩
  obtain ⟨-, -, -, hwords, hvalues⟩ := meaning_of_conditions f r rs h
  have hvisible : Dialect.postgres.Visible := Dialect.visible_of_shipped (by simp [Dialect.shipped])
  refine ⟨h, hatomic, by decide +kernel, fun e he => ?_, fun hall => ?_⟩
  · exact (hwords .postgres f e hvisible he hatomic).2.1
  · have hands : Connective.AndsFirst [.and, .or, .and] := ((hvalues Bool).2 inferInstance).1 hall
    simp [Connective.AndsFirst] at hands

end Filtering

end BoundSql
