import BoundSql.Proofs.Expr.Visit

/-! The pieces that a script adds to a query in one dialect. Where no placeholder is empty, whether
a space is taken back does not depend on the values before it, and writing a script is writing its
pieces one after another. -/

namespace BoundSql

/-- The dialects that come with the library. -/
def Dialect.shipped : List Dialect := [.generic, .postgres, .mysql, .sqlite]

/-- No placeholder is an empty text. -/
def Dialect.Visible (d : Dialect) : Prop := ∀ n, d.placeholder n ≠ ""

theorem Dialect.visible_of_shipped {d : Dialect} (h : d ∈ Dialect.shipped) : d.Visible := by
  simp only [shipped, List.mem_cons, List.not_mem_nil, or_false] at h
  rcases h with rfl | rfl | rfl | rfl <;> intro n <;>
    simp [generic, postgres, mysql, sqlite]

/-- Names are quoted in the common way, as tokens of the quote character. -/
abbrev Dialect.Doubling (d : Dialect) : Prop := d.quoted = Quoted.token d.quote

theorem Dialect.doubling_of_shipped {d : Dialect} (h : d ∈ Dialect.shipped) : d.Doubling := by
  simp only [shipped, List.mem_cons, List.not_mem_nil, or_false] at h
  rcases h with rfl | rfl | rfl | rfl <;> rfl

/-- What is added to a query at once. -/
inductive Piece where
  | fixed (s : String)
  | verbatim (s : String)
  | name (s : String)
  | string (s : String)
  | bind (v : Value)

namespace Piece

/-- The text of a piece behind a number of values. -/
def text (d : Dialect) (n : Nat) : Piece → String
  | fixed s => s
  | verbatim s => s
  | name s => d.quoted s
  | string s => Quoted.token '\'' s
  | bind _ => d.placeholder (n + 1)

def values : Piece → List Value
  | bind v => [v]
  | _ => []

/-- A piece without text; a name has none if the dialect quotes it so. -/
def isEmpty (d : Dialect) : Piece → Bool
  | fixed s => s.isEmpty
  | verbatim s => s.isEmpty
  | name s => (d.quoted s).isEmpty
  | _ => false

def isName : Piece → Bool
  | name _ => true
  | _ => false

/-- The text of pieces one after another, behind a number of values. -/
def rendered (d : Dialect) : Nat → List Piece → String
  | _, [] => ""
  | n, p :: ps => p.text d n ++ rendered d (n + p.values.length) ps

@[simp] theorem rendered_nil (d : Dialect) (n : Nat) : rendered d n [] = "" := rfl

@[simp] theorem rendered_cons (d : Dialect) (n : Nat) (p : Piece) (ps : List Piece) :
    rendered d n (p :: ps) = p.text d n ++ rendered d (n + p.values.length) ps := rfl

theorem rendered_append (d : Dialect) (n : Nat) (ps qs : List Piece) :
    rendered d n (ps ++ qs) =
      rendered d n ps ++ rendered d (n + (ps.flatMap values).length) qs := by
  induction ps generalizing n with
  | nil => simp
  | cons p ps ih => simp [ih, String.append_assoc, Nat.add_assoc]

theorem token_ne_empty (q : Char) (s : String) : Quoted.token q s ≠ "" := by
  intro h
  simpa using congrArg String.toList h

theorem text_eq_empty_iff {d : Dialect} (hd : d.Visible) (n : Nat) (p : Piece) :
    p.text d n = "" ↔ p.isEmpty d = true := by
  cases p with
  | fixed s | verbatim s | name s => simp [text, isEmpty]
  | string s => simp [text, isEmpty, token_ne_empty]
  | bind v => simp [text, isEmpty, hd (n + 1)]

theorem rendered_eq_empty_iff {d : Dialect} (hd : d.Visible) (n : Nat) (ps : List Piece) :
    rendered d n ps = "" ↔ ps.all (isEmpty d) = true := by
  induction ps generalizing n with
  | nil => simp
  | cons p ps ih => simp [String.append_eq_empty_iff, text_eq_empty_iff hd, ih]

def visit {β : Type} (v : Visitor β) : Piece → List β
  | name s => v.name s
  | string s => v.string s
  | bind x => v.value x
  | _ => []

theorem values_eq_visit (p : Piece) : p.values = p.visit { value := fun x => [x] } := by
  cases p <;> rfl

/-- Of pieces without text only the names can be noted. -/
theorem visit_filter_isName {β : Type} {d : Dialect} (v : Visitor β) {ps : List Piece}
    (h : ps.all (isEmpty d) = true) :
    (ps.filter isName).flatMap (visit v) = ps.flatMap (visit v) := by
  induction ps with
  | nil => rfl
  | cons p ps ih =>
    obtain ⟨hp, hps⟩ := (List.all_cons ▸ Bool.and_eq_true_iff).1 h
    rw [List.flatMap_cons, ← ih hps]
    cases p with
    | name | fixed | verbatim => rfl
    | string | bind => exact absurd hp Bool.false_ne_true

/-- Pieces behind a space. If none of them has a text then neither has the whole, and only the names
among them are left to be noted. -/
def spaced (d : Dialect) (ps : List Piece) : List Piece :=
  if ps.all (isEmpty d) then ps.filter isName else .fixed " " :: ps

theorem rendered_spaced {d : Dialect} (hd : d.Visible) (n : Nat) (ps : List Piece) :
    rendered d n (spaced d ps) =
      if rendered d n ps = "" then "" else " " ++ rendered d n ps := by
  unfold spaced
  by_cases he : ps.all (isEmpty d) = true
  · have hf : (ps.filter isName).all (isEmpty d) = true :=
      List.all_eq_true.2 fun p hp => List.all_eq_true.1 he p (List.mem_filter.1 hp).1
    rw [if_pos he, if_pos ((rendered_eq_empty_iff hd n ps).2 he), rendered_eq_empty_iff hd, hf]
  · rw [if_neg he, if_neg (mt (rendered_eq_empty_iff hd n ps).1 he)]
    rfl

/-- A dialect without quotes: an empty name takes its space with it. -/
example :
    let d : Dialect := { name := "bare", quoted := id }
    rendered d 0 (spaced d [.name "t"]) = " t" ∧ rendered d 0 (spaced d [.name ""]) = "" := by
  decide

theorem visit_spaced {β : Type} (v : Visitor β) (d : Dialect) (ps : List Piece) :
    (spaced d ps).flatMap (visit v) = ps.flatMap (visit v) := by
  unfold spaced
  split
  · exact visit_filter_isName v ‹_›
  · rfl

theorem values_spaced (d : Dialect) (ps : List Piece) :
    (spaced d ps).flatMap values = ps.flatMap values := by
  rw [funext values_eq_visit, visit_spaced]

/-- Where each name is a token, pieces without text leave nothing. -/
theorem spaced_of_doubling {d : Dialect} (hd : d.Doubling) (ps : List Piece) :
    spaced d ps = if ps.all (isEmpty d) then [] else .fixed " " :: ps := by
  unfold spaced
  split
  · refine List.filter_eq_nil_iff.2 fun p hp => ?_
    have he := List.all_eq_true.1 ‹_› p hp
    cases p with
    | name s => exact absurd (String.isEmpty_iff.1 he) (hd ▸ token_ne_empty d.quote s)
    | fixed | verbatim | string | bind => exact Bool.false_ne_true
  · rfl

end Piece

def Query.addPieces (q : Query) (d : Dialect) (ps : List Piece) : Query :=
  ⟨q.sql ++ Piece.rendered d q.binds.length ps, q.binds ++ ps.flatMap Piece.values⟩

namespace Script

def pieces (d : Dialect) : Script → List Piece
  | nothing => []
  | fixed s => [.fixed s]
  | verbatim s => [.verbatim s]
  | worded w => [.verbatim (d.wording w)]
  | name s => [.name s]
  | string s => [.string s]
  | bind v => [.bind v]
  | append a b => a.pieces d ++ b.pieces d
  | returned a => if d.returning then a.pieces d else []
  | spaced a => Piece.spaced d (a.pieces d)

@[simp] theorem pieces_append (d : Dialect) (a b : Script) :
    (a ++ b).pieces d = a.pieces d ++ b.pieces d := rfl

/-- The space before a piece is taken back exactly if all its parts are empty. -/
theorem spaced_apply {d : Dialect} (hd : d.Visible) {w : Writer} {ps : List Piece}
    (h : ∀ q : Query, w d q = q.addPieces d ps) (q : Query) :
    Writer.spaced w d q = q.addPieces d (Piece.spaced d ps) := by
  have hw : w d (q.write " ") =
      ⟨q.sql ++ (" " ++ Piece.rendered d q.binds.length ps),
        q.binds ++ ps.flatMap Piece.values⟩ := by
    rw [h, Query.addPieces, Query.sql_write, String.append_assoc]
    rfl
  rw [Writer.spaced_eq (congrArg Query.sql hw), hw, Query.addPieces, Piece.rendered_spaced hd,
    Piece.values_spaced]

/-- Where placeholders can be seen, a script adds its pieces. -/
theorem writer_apply {d : Dialect} (hd : d.Visible) (s : Script) (q : Query) :
    s.writer d q = q.addPieces d (s.pieces d) := by
  induction s generalizing q with
  | nothing => simp [writer, pieces, Query.addPieces]
  | fixed s | verbatim s | name s | string s =>
    simp [writer, pieces, Query.addPieces, Query.write, Piece.text, Piece.values]
  | worded w =>
    simp [writer, pieces, Query.addPieces, Query.write, Piece.text, Piece.values,
      Writer.dialectText]
  | bind v => simp [writer, pieces, Query.addPieces, Query.bind, Piece.text, Piece.values]
  | append a b iha ihb =>
    simp [writer, pieces, iha, ihb, Query.addPieces, Piece.rendered_append, String.append_assoc]
  | returned a ih =>
    by_cases h : d.returning = true <;>
      simp [writer, pieces, Writer.onlyIf, h, ih, Query.addPieces]
  | spaced a ih => exact spaced_apply hd ih q

theorem pieces_visit {β : Type} (v : Visitor β) (d : Dialect) (s : Script) :
    (s.pieces d).flatMap (Piece.visit v) = s.visit v d.returning := by
  induction s with
  | append a b iha ihb => simp [pieces, visit, iha, ihb]
  | returned a ih =>
    by_cases h : d.returning = true
    · simp only [pieces, visit, if_pos h, ih]
    · simp only [pieces, visit, if_neg h, List.flatMap_nil]
  | spaced a ih => rw [pieces, Piece.visit_spaced, ih, visit]
  | name | string | bind => exact List.flatMap_singleton _ _
  | _ => rfl

theorem pieces_values (d : Dialect) (s : Script) :
    (s.pieces d).flatMap Piece.values = s.visit { value := fun x => [x] } d.returning := by
  rw [← pieces_visit, funext Piece.values_eq_visit]

end Script

def Expr.pieces (d : Dialect) (e : Expr Empty) : List Piece := e.script.pieces d

theorem Expr.pieces_visit {β : Type} (v : Visitor β) (d : Dialect) (e : Expr Empty) :
    (e.pieces d).flatMap (Piece.visit v) = e.visit v d.returning := by
  rw [pieces, Script.pieces_visit, visit_script]

theorem Expr.writer_apply {d : Dialect} (hd : d.Visible) (e : Expr Empty) (q : Query) :
    e.writer d q = q.addPieces d (e.pieces d) := by
  rw [← e.writer_script, Script.writer_apply hd]; rfl

end BoundSql
