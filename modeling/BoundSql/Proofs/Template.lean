import BoundSql.Proofs.Expr.Growth
import BoundSql.Proofs.Expr.Relabel

/-! Which value stands behind which placeholder. What a tree adds to a query is a template, a row of
fixed texts with one placeholder between each two, and the values of its bind nodes in their order:
the nth placeholder of the query is the one of the nth value, whatever was in the query before. -/

namespace BoundSql

/-- Fixed texts around placeholders, one more of them than there are placeholders. -/
structure Template where
  first : String
  rest : List String

namespace Template

/-- The texts behind placeholders, each with its placeholder before it. -/
def fillRest (placeholder : Nat → String) : Nat → List String → String
  | _, [] => ""
  | n, c :: cs => placeholder (n + 1) ++ c ++ fillRest placeholder (n + 1) cs

/-- The text once the placeholders behind a number of values stand between the fixed texts. -/
def fill (placeholder : Nat → String) (n : Nat) (t : Template) : String :=
  t.first ++ fillRest placeholder n t.rest

/-- A piece before a template; a value starts a new fixed text. -/
def cons (d : Dialect) (p : Piece) (t : Template) : Template :=
  match p with
  | .bind _ => ⟨"", t.first :: t.rest⟩
  | p => ⟨p.text d 0 ++ t.first, t.rest⟩

def ofPieces (d : Dialect) (ps : List Piece) : Template := ps.foldr (cons d) ⟨"", []⟩

theorem fill_cons (d : Dialect) (n : Nat) (p : Piece) (t : Template) :
    (cons d p t).fill d.placeholder n =
      p.text d n ++ t.fill d.placeholder (n + p.values.length) := by
  cases p <;> simp [cons, fill, fillRest, Piece.text, Piece.values, String.append_assoc]

/-- Pieces are rendered by filling in their template. -/
theorem fill_ofPieces (d : Dialect) (n : Nat) (ps : List Piece) :
    (ofPieces d ps).fill d.placeholder n = Piece.rendered d n ps := by
  induction ps generalizing n with
  | nil => rfl
  | cons p ps ih => rw [Piece.rendered_cons, ← ih]; exact fill_cons d n p _

/-- There are as many placeholders as values. -/
theorem length_rest_ofPieces (d : Dialect) (ps : List Piece) :
    (ofPieces d ps).rest.length = (ps.flatMap Piece.values).length := by
  induction ps with
  | nil => rfl
  | cons p ps ih => cases p <;> simpa [ofPieces, cons, Piece.values] using ih

/-- The placeholders of the dialect are no part of a template. -/
theorem ofPieces_placeholder (d : Dialect) (f : Nat → String) (ps : List Piece) :
    ofPieces { d with placeholder := f } ps = ofPieces d ps := by
  have h : cons { d with placeholder := f } = cons d := by
    funext p t; cases p <;> rfl
  rw [ofPieces, ofPieces, h]

/-- The values are no part of a template. -/
theorem ofPieces_forgetValues (d : Dialect) (ps : List Piece) :
    ofPieces d (ps.map (Piece.relabel .forgetValues)) = ofPieces d ps := by
  have h (p : Piece) (t : Template) : cons d (p.relabel .forgetValues) t = cons d p t := by
    cases p <;> rfl
  rw [ofPieces, List.foldr_map, ofPieces]
  simp only [h]

end Template

/-- Which pieces are written does not depend on the placeholders. -/
theorem Script.pieces_placeholder (d : Dialect) (f : Nat → String) (s : Script) :
    s.pieces { d with placeholder := f } = s.pieces d := by
  induction s with
  | worded w => cases w <;> rfl
  | append a b iha ihb => rw [pieces, iha, ihb]; rfl
  | returned a ih => rw [pieces, ih]; rfl
  | spaced a ih => rw [pieces, ih]; rfl
  | _ => rfl

namespace Expr

/-- The fixed texts of a tree in a dialect. -/
def template (d : Dialect) (e : Expr Empty) : Template := .ofPieces d (e.pieces d)

theorem binds_writer (e : Expr Empty) (d : Dialect) (q : Query) :
    (e.writer d q).binds = q.binds ++ e.values d.returning := by
  obtain ⟨text, h⟩ := e.fills d
  rw [h q]

theorem template_placeholder (e : Expr Empty) (d : Dialect) (f : Nat → String) :
    e.template { d with placeholder := f } = e.template d := by
  rw [template, Template.ofPieces_placeholder, pieces, Script.pieces_placeholder]; rfl

theorem template_forgetValues (e : Expr Empty) (d : Dialect) :
    (e.relabel .forgetValues).template d = e.template d := by
  rw [template, pieces_relabel Relabelling.forgetValues_starless
    (Relabelling.forgetValues_faithful d), Template.ofPieces_forgetValues]; rfl

theorem length_rest_template (e : Expr Empty) (d : Dialect) :
    (e.template d).rest.length = (e.values d.returning).length := by
  rw [template, Template.length_rest_ofPieces, pieces, Script.pieces_values, visit_script]; rfl

/-- The binds of a query grow by the values of a tree in the order of its bind nodes. Where
placeholders can be seen, its text grows by fixed texts and one placeholder for each value, numbered
on from the binds before; the fixed texts depend neither on the query, nor on the placeholders, nor
on the values. -/
theorem nth_placeholder_is_nth_bind (e : Expr Empty) (d : Dialect) (q : Query) :
    (e.writer d q).binds = q.binds ++ e.values d.returning ∧
    (d.Visible →
      (e.template d).rest.length = (e.values d.returning).length ∧
      (e.writer d q).sql = q.sql ++ (e.template d).fill d.placeholder q.binds.length) ∧
    (∀ f, e.template { d with placeholder := f } = e.template d) ∧
    (∀ e' : Expr Empty, e'.relabel .forgetValues = e.relabel .forgetValues →
      e'.template d = e.template d) ∧
    ∀ d ∈ Dialect.shipped, d.Visible := by
  refine ⟨e.binds_writer d q, fun hd => ⟨e.length_rest_template d, ?_⟩, e.template_placeholder d,
    fun e' h => ?_, fun d => Dialect.visible_of_shipped⟩
  · rw [e.writer_apply hd, Query.addPieces, template, Template.fill_ofPieces]
  · rw [← e'.template_forgetValues, h, e.template_forgetValues]

/-- A value in a separator counts each time that the separator is written. -/
theorem nth_placeholder_of_separator :
    Dialect.postgres.Visible ∧
    (list [bind (.bool true), binds [.null, .text "x"], lock .update]
        (bind (.bool false)) : Expr Empty).writer .postgres ⟨"a = $1 AND ", [.null]⟩ =
      ⟨"a = $1 AND " ++ "$2$3($4, $5)$6FOR UPDATE",
        [.null, .bool true, .bool false, .null, .text "x", .bool false]⟩ := by
  have hd := Dialect.visible_of_shipped (d := .postgres) (by simp [Dialect.shipped])
  obtain ⟨hb, ht, -⟩ := nth_placeholder_is_nth_bind
    (list [bind (.bool true), binds [.null, .text "x"], lock .update] (bind (.bool false)))
    .postgres ⟨"a = $1 AND ", [.null]⟩
  refine ⟨hd, ?_⟩
  rw [Query.mk.injEq]
  exact ⟨(ht hd).2.trans rfl, hb.trans rfl⟩

end Expr

end BoundSql
