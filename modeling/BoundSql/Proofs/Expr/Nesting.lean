import BoundSql.Proofs.Piece
import BoundSql.Proofs.Precedence

/-! Conditions are cut at the connectives that stand outside of parentheses. Whatever tree stands
between parentheses closes as many as it opens, so that no connective within it is seen. -/

namespace BoundSql

namespace Piece

/-- A connective, if a piece is one. -/
def connective? : Piece → Option Connective
  | fixed s => if s = "AND" then some .and else if s = "OR" then some .or else none
  | _ => none

/-- The number of open parentheses after a piece. -/
def depth (n : ℕ) : Piece → ℕ
  | fixed s => if s = "(" then n + 1 else if s = ")" then n - 1 else n
  | _ => n

def isBlank : Piece → Bool
  | fixed s => s = " "
  | _ => false

/-- The pieces up to the first connective outside of parentheses, and those behind each of these
connectives, without the spaces between them. -/
def cut : ℕ → List Piece → List Piece × List (Connective × List Piece)
  | _, [] => ([], [])
  | n, p :: ps =>
    let (condition, rest) := cut (p.depth n) ps
    match if n = 0 then p.connective? else none with
    | some c => ([], (c, condition) :: rest)
    | none => (if p.isBlank then condition else p :: condition, rest)

def solid (ps : List Piece) : List Piece := ps.filter (!·.isBlank)

/-- The conditions and connectives of a predicate. -/
def words (ps : List Piece) : List (Word (List Piece)) :=
  .condition (cut 0 ps).1 :: (cut 0 ps).2.flatMap fun (c, b) => [.connective c, .condition b]

/-- Pieces that are not cut where at least some number of parentheses is open, and leave as many
open. -/
def Sealed (least : ℕ) (ps : List Piece) : Prop :=
  ∀ n qs, least ≤ n → cut n (ps ++ qs) = (solid ps ++ (cut n qs).1, (cut n qs).2)

variable {ps qs : List Piece} {m : ℕ}

theorem sealed_nil : Sealed m [] := fun _ _ _ => rfl

theorem Sealed.append (hp : Sealed m ps) (hq : Sealed m qs) : Sealed m (ps ++ qs) := by
  intro n rs hn
  rw [List.append_assoc, hp n _ hn, hq n rs hn, solid, solid, solid, List.filter_append,
    List.append_assoc]

theorem cut_cons {p : Piece} {n : ℕ} (hc : n = 0 → p.connective? = none) (qs : List Piece) :
    cut n (p :: qs) = (solid [p] ++ (cut (p.depth n) qs).1, (cut (p.depth n) qs).2) := by
  have hnone : (if n = 0 then p.connective? else none) = none := by
    split
    · exact hc ‹_›
    · rfl
  rw [cut, hnone]
  by_cases hb : p.isBlank = true <;> simp [solid, hb]

theorem cut_space (n : ℕ) : cut n (fixed " " :: qs) = cut n qs := cut_cons (fun _ => rfl) qs

theorem cut_connective (c : Connective) : cut 0 (fixed c.operator.text :: qs) =
    ([], (c, (cut 0 qs).1) :: (cut 0 qs).2) := by
  cases c <;> rfl

/-- A piece that is no parenthesis, and no connective unless it stands within some. -/
theorem sealed_singleton {p : Piece} (hd : ∀ n, p.depth n = n)
    (hc : m = 0 → p.connective? = none) : Sealed m [p] := by
  intro n qs hn
  have := cut_cons (fun h => hc (by omega)) (n := n) qs
  rwa [hd] at this

theorem sealed_of_names (h : ∀ p ∈ ps, p.isName = true) : Sealed m ps := by
  induction ps with
  | nil => exact sealed_nil
  | cons p ps ih =>
    obtain ⟨hp, hps⟩ := List.forall_mem_cons.1 h
    have hs : Sealed m [p] := by
      cases p with
      | name s => exact sealed_singleton (fun _ => rfl) fun _ => rfl
      | fixed | verbatim | string | bind => exact absurd hp Bool.false_ne_true
    exact hs.append (ih hps)

/-- What stands between parentheses is not cut at all. -/
theorem Sealed.parenthesized (h : Sealed 1 ps) :
    Sealed m (fixed "(" :: ps ++ [fixed ")"]) := by
  intro n qs _
  have hopen := cut_cons (p := fixed "(") (n := n) (fun _ => rfl) (ps ++ ([fixed ")"] ++ qs))
  have hclose := cut_cons (p := fixed ")") (n := n + 1) (fun _ => rfl) qs
  have hinner := h (n + 1) (fixed ")" :: qs) (by omega)
  rw [List.cons_append, List.cons_append, List.append_assoc, hopen]
  have hdepth : depth n (fixed "(") = n + 1 := rfl
  have hdepth' : depth (n + 1) (fixed ")") = n := rfl
  rw [hdepth, List.singleton_append, hinner, hclose, hdepth']
  simp [solid, isBlank]

end Piece

open Piece

/-- A script that closes the parentheses it opens. -/
abbrev Script.Nested (d : Dialect) (s : Script) : Prop := Sealed 1 (s.pieces d)

/-- A word of the grammar that is no parenthesis. -/
def IsFlat (s : String) : Prop := s ≠ "(" ∧ s ≠ ")"

instance : DecidablePred IsFlat := fun _ => inferInstanceAs (Decidable (_ ∧ _))

theorem Operator.isFlat_text (op : Operator) : IsFlat op.text := by cases op <;> decide

namespace Script

variable {d : Dialect}

theorem nested_nothing : nothing.Nested d := sealed_nil

theorem nested_fixed {s : String} (h : IsFlat s) : (fixed s).Nested d :=
  sealed_singleton (fun n => by simp [depth, h.1, h.2]) nofun

theorem nested_verbatim (s : String) : (verbatim s).Nested d := sealed_singleton (fun _ => rfl) nofun

theorem nested_worded (w : Wording) : (worded w).Nested d := sealed_singleton (fun _ => rfl) nofun

theorem nested_name (s : String) : (name s).Nested d := sealed_singleton (fun _ => rfl) nofun

theorem nested_bind (v : Value) : (bind v).Nested d := sealed_singleton (fun _ => rfl) nofun

theorem Nested.append {a b : Script} (ha : a.Nested d) (hb : b.Nested d) : (a ++ b).Nested d :=
  Sealed.append ha hb

theorem Nested.parenthesized {s : Script} (h : s.Nested d) : (parenthesized s).Nested d :=
  Sealed.parenthesized h

theorem nested_joined {x : Script} (hx : x.Nested d) {ss : List Script}
    (h : ∀ s ∈ ss, s.Nested d) : (joined x ss).Nested d := by
  induction ss with
  | nil => exact nested_nothing
  | cons s ss ih =>
    have hs := h s List.mem_cons_self
    cases ss with
    | nil => exact hs
    | cons t ss => exact (hs.append hx).append (ih fun t ht => h t (.tail s ht))

theorem nested_commaSeparated {ss : List Script} (h : ∀ s ∈ ss, s.Nested d) :
    (commaSeparated ss).Nested d := nested_joined (nested_fixed (by decide)) h

theorem nested_optional {keyword : String} (hk : IsFlat keyword) {o : Option Script}
    (h : ∀ s ∈ o, s.Nested d) : (optional keyword o).Nested d := by
  cases o with
  | none => exact nested_nothing
  | some s => exact (nested_fixed hk).append (h s rfl)

theorem nested_clause {keyword : String} (hk : IsFlat keyword) {ss : List Script}
    (h : ∀ s ∈ ss, s.Nested d) : (clause keyword ss).Nested d := by
  cases ss with
  | nil => exact nested_nothing
  | cons s ss => exact (nested_fixed hk).append (nested_commaSeparated h)

theorem nested_returning {ss : List Script} (h : ∀ s ∈ ss, s.Nested d) :
    (returning ss).Nested d := by
  unfold returning Nested pieces
  split
  · exact nested_clause (by decide) h
  · exact sealed_nil

theorem Nested.spaced {s : Script} (h : s.Nested d) : (spaced s).Nested d := by
  unfold Nested pieces Piece.spaced
  split
  · exact sealed_of_names fun p hp => (List.mem_filter.1 hp).2
  · exact (nested_fixed (by decide) : (fixed " ").Nested d).append h

end Script

section Statements

variable {d : Dialect}

theorem Segment.nested_script {g : Segment Script} (hw : ∀ w ∈ g.words, IsFlat w)
    (h : ∀ c ∈ g.parts, c.Nested d) : g.script.Nested d := by
  cases g with
  | flag word present =>
    cases present
    · exact Script.nested_nothing
    · exact Script.nested_fixed (hw word (.head _))
  | items ss => exact Script.nested_commaSeparated h
  | clause keyword ss => exact Script.nested_clause (hw keyword (.head _)) h
  | joins ss =>
    have hspace : (Script.fixed " ").Nested d := Script.nested_fixed (by decide)
    cases ss with
    | nil => exact Script.nested_nothing
    | cons s ss => exact hspace.append (Script.nested_joined hspace h)
  | optional keyword o =>
    exact Script.nested_optional (hw keyword (.head _)) fun c hc => h c (Option.mem_toList.2 hc)
  | count keyword n =>
    refine Script.nested_optional (hw keyword (.head _)) fun c hc => ?_
    obtain ⟨m, -, rfl⟩ := Option.map_eq_some_iff.1 hc
    exact Script.nested_verbatim _
  | locking o =>
    cases o with
    | none => exact Script.nested_nothing
    | some c => exact (h c (.head _)).spaced

theorem Select.isFlat_words {ε : Type} (s : Select ε) (c : Clause) :
    ∀ w ∈ (s.segment c).words, IsFlat w := by
  cases c <;> simp only [segment, Segment.words] <;> decide

theorem Select.nested_script {s : Select Script} (h : ∀ c ∈ s.parts, c.Nested d) :
    s.script.Nested d := by
  have clauses (cs : List Clause) : (s.clausesScript cs).Nested d := by
    induction cs with
    | nil => exact Script.nested_nothing
    | cons c cs ih =>
      have hc := Segment.nested_script (s.isFlat_words c) fun e he => h e (mem_parts_of_segment he)
      exact hc.append ih
  exact (Script.nested_fixed (by decide)).append (clauses _)

theorem Insert.nested_script {s : Insert Script} (h : ∀ c ∈ s.parts, c.Nested d) :
    s.script.Nested d := by
  obtain ⟨ht, hc, hv, hr⟩ := forall_parts.1 h
  have hcolumns : (columnsScript s.columns).Nested d := by
    cases hs : s.columns with
    | nil => exact Script.nested_nothing
    | cons c cs =>
      exact (Script.nested_fixed (by decide)).append
        (Script.nested_commaSeparated (hs ▸ hc)).parenthesized
  have hrows : ∀ c ∈ s.values.map rowScript, c.Nested d := by
    intro c hc
    obtain ⟨row, hrow, rfl⟩ := List.mem_map.1 hc
    exact (Script.nested_commaSeparated (hv row hrow)).parenthesized
  exact ((((Script.nested_fixed (by decide)).append ht).append hcolumns).append
    (Script.nested_clause (by decide) hrows)).append (Script.nested_returning hr)

theorem Update.nested_script {s : Update Script} (h : ∀ c ∈ s.parts, c.Nested d) :
    s.script.Nested d := by
  obtain ⟨ht, hv, hp, hr⟩ := forall_parts.1 h
  exact (((((Script.nested_fixed (by decide)).append ht).append
    (Script.nested_fixed (by decide))).append (Script.nested_commaSeparated hv)).append
    (Script.nested_optional (by decide) hp)).append (Script.nested_returning hr)

theorem Delete.nested_script {s : Delete Script} (h : ∀ c ∈ s.parts, c.Nested d) :
    s.script.Nested d := by
  obtain ⟨ht, hp, hr⟩ := forall_parts.1 h
  exact (((Script.nested_fixed (by decide)).append ht).append
    (Script.nested_optional (by decide) hp)).append (Script.nested_returning hr)

end Statements

/-- Every tree closes the parentheses it opens, and closes no others. -/
theorem Expr.nested_script {d : Dialect} (e : Expr Empty) : e.script.Nested d := by
  induction e using induction with
  | step e ih =>
    have all {xs : List (Expr Empty)} (h : ∀ x ∈ xs, x ∈ e.children) :
        ∀ s ∈ xs.map script, s.Nested d := by
      intro s hs
      obtain ⟨x, hx, rfl⟩ := List.mem_map.1 hs
      exact ih x (h x hx)
    have word {s : String} (h : IsFlat s) : (Script.fixed s).Nested d := Script.nested_fixed h
    cases e with
    | own n => exact n.elim
    | raw s => exact Script.nested_verbatim s
    | identifier n => exact Script.nested_name n
    | bind v => exact Script.nested_bind v
    | operator op => exact word op.isFlat_text
    | lock mode => exact Script.nested_worded _
    | literal l =>
      cases l with
      | all | null => exact word (by decide)
      | default | boolean b => exact Script.nested_worded _
      | numeric s => exact Script.nested_verbatim s
      | string s => exact sealed_singleton (fun _ => rfl) nofun
    | column t n =>
      have hn : (if n = "*" then Script.fixed "*" else .name n).Nested d := by
        split
        · exact word (by decide)
        · exact Script.nested_name n
      cases t with
      | none => exact hn
      | some t => exact ((Script.nested_name t).append (word (by decide))).append hn
    | aliased x n =>
      exact ((ih x (by simp [children])).append (word (by decide))).append (Script.nested_name n)
    | binds vs =>
      refine (Script.nested_commaSeparated fun s hs => ?_).parenthesized
      obtain ⟨v, -, rfl⟩ := List.mem_map.1 hs
      exact Script.nested_bind v
    | list xs x =>
      rw [script_list]
      exact Script.nested_joined (ih x (by simp [children])) (all fun y hy => by simp [children, hy])
    | group x => exact (ih x (by simp [children])).parenthesized
    | binary x op y =>
      have hx := ih x (by simp [children])
      have hy := ih y (by simp [children])
      exact (((hx.append (word (by decide))).append (word op.isFlat_text)).append
        (word (by decide))).append hy
    | function n xs =>
      rw [script_function]
      exact (Script.nested_verbatim n).append
        (Script.nested_commaSeparated (all fun x hx => hx)).parenthesized
    | join m x o =>
      have ho : ∀ s ∈ o.map script, s.Nested d := by
        intro s hs
        obtain ⟨y, hy, rfl⟩ := Option.map_eq_some_iff.1 hs
        exact ih y (by simp [children, hy])
      have hm : IsFlat m.text := by cases m <;> decide
      rw [script_join]
      exact (((word hm).append (word (by decide))).append (ih x (by simp [children]))).append
        (Script.nested_optional (by decide) ho)
    | order x direction =>
      have hd : IsFlat direction.text := by cases direction <;> decide
      exact ((ih x (by simp [children])).append (word (by decide))).append (word hd)
    | spaced x => exact (ih x (by simp [children])).spaced
    | select s =>
      rw [script_select]
      exact Select.nested_script (s.parts_map script ▸ all fun x hx => hx)
    | insert s =>
      rw [script_insert]
      exact Insert.nested_script (s.parts_map script ▸ all fun x hx => hx)
    | update s =>
      rw [script_update]
      exact Update.nested_script (s.parts_map script ▸ all fun x hx => hx)
    | delete s =>
      rw [script_delete]
      exact Delete.nested_script (s.parts_map script ▸ all fun x hx => hx)

end BoundSql
