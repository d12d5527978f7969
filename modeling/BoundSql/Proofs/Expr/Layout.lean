import Mathlib.Data.List.Chain
import BoundSql.Proofs.Piece

/-! How the pieces of a tree lie side by side. Between each two of its leaves stands a word of the
grammar or the separator of a list, so that no two names, values or texts of the caller ever touch. -/

namespace BoundSql

/-- The letters and signs of the grammar. -/
def isGrammatical (c : Char) : Bool := c.isUpper || " (),.*=<>+-/%|".toList.contains c

def Grammatical (s : String) : Prop := s ≠ "" ∧ s.toList.all isGrammatical = true

instance : DecidablePred Grammatical := fun _ => inferInstanceAs (Decidable (_ ∧ _))

theorem Operator.grammatical_text (op : Operator) : Grammatical op.text := by
  cases op <;> decide

theorem JoinMethod.grammatical_text (method : JoinMethod) : Grammatical method.text := by
  cases method <;> decide

theorem Direction.grammatical_text (direction : Direction) : Grammatical direction.text := by
  cases direction <;> decide

/-- A condition holds of every node of a tree. -/
inductive Expr.Throughout (p : Expr Empty → Prop) : Expr Empty → Prop
  | node {e : Expr Empty} (here : p e) (below : ∀ c ∈ e.children, Throughout p c) : Throughout p e

/-- The texts that a node takes from the caller as they stand are of one kind, and if it is a list
then its separator is a text of another kind. -/
def Expr.Spelt (text separator : String → Prop) : Expr Empty → Prop
  | raw s | literal (.numeric s) | function s _ => text s
  | list _ x => ∃ s, x = raw s ∧ separator s
  | _ => True

namespace Piece

variable (text separator : String → Prop)

/-- Words are words of the grammar, and texts of the caller are of one kind. -/
def Fits : Piece → Prop
  | fixed s => Grammatical s
  | verbatim s => text s
  | _ => True

/-- A piece that keeps its neighbours apart. -/
def Seam : Piece → Prop
  | fixed _ => True
  | verbatim s => separator s
  | _ => False

/-- Pieces that fit, of each two neighbours at least one a seam. -/
structure Layout (ps : List Piece) : Prop where
  fits : ∀ p ∈ ps, p.Fits text
  apart : ps.IsChain fun a b => a.Seam separator ∨ b.Seam separator

/-- A layout that may follow any other. -/
structure Trailer (ps : List Piece) : Prop extends Layout text separator ps where
  head : ∀ p ∈ ps.head?, p.Seam separator

variable {text separator} {ps qs : List Piece}

theorem layout_nil : Layout text separator [] := ⟨by simp, .nil⟩

theorem layout_singleton {p : Piece} (h : p.Fits text) : Layout text separator [p] :=
  ⟨by simpa using h, .singleton p⟩

theorem trailer_nil : Trailer text separator [] := ⟨layout_nil, by simp⟩

theorem Layout.append (hp : Layout text separator ps) (hq : Trailer text separator qs) :
    Layout text separator (ps ++ qs) := by
  refine ⟨fun p h => ?_, hp.apart.append hq.apart fun _ _ q h => .inr (hq.head q h)⟩
  rcases List.mem_append.1 h with h | h
  · exact hp.fits p h
  · exact hq.fits p h

theorem Trailer.append (hp : Trailer text separator ps) (hq : Trailer text separator qs) :
    Trailer text separator (ps ++ qs) := by
  refine ⟨hp.toLayout.append hq, fun p h => ?_⟩
  cases ps with
  | nil => exact hq.head p h
  | cons => exact hp.head p h

theorem Layout.cons {p : Piece} (hf : p.Fits text) (hs : p.Seam separator)
    (h : Layout text separator ps) : Trailer text separator (p :: ps) := by
  refine ⟨⟨?_, h.apart.cons fun _ _ => .inl hs⟩, by simpa using hs⟩
  simpa using ⟨hf, h.fits⟩

theorem Layout.word {s : String} (h : Layout text separator ps) (hs : Grammatical s) :
    Trailer text separator (fixed s :: ps) := h.cons hs trivial

theorem layout_word {s : String} (hs : Grammatical s) : Layout text separator [fixed s] :=
  layout_singleton hs

theorem trailer_word {s : String} (hs : Grammatical s) : Trailer text separator [fixed s] :=
  layout_nil.word hs

end Piece

open Piece

/-- The layout of what a script writes in a dialect. -/
abbrev Script.Layout (text separator : String → Prop) (d : Dialect) (s : Script) : Prop :=
  Piece.Layout text separator (s.pieces d)

abbrev Script.Trailer (text separator : String → Prop) (d : Dialect) (s : Script) : Prop :=
  Piece.Trailer text separator (s.pieces d)

namespace Script

variable {text separator : String → Prop} {d : Dialect}

theorem layout_joined {x : Script} {p : Piece} (hx : x.pieces d = [p]) (hf : p.Fits text)
    (hp : p.Seam separator) {ss : List Script} (h : ∀ s ∈ ss, s.Layout text separator d) :
    (joined x ss).Layout text separator d := by
  induction ss with
  | nil => exact layout_nil
  | cons s ss ih =>
    have ht := ih fun t ht => h t (List.mem_cons_of_mem s ht)
    have hs := h s List.mem_cons_self
    cases ss with
    | nil => exact hs
    | cons t ss =>
      have := hs.append (ht.cons hf hp)
      simpa only [joined, Script.Layout, pieces_append, hx, List.append_assoc,
        List.singleton_append] using this

theorem layout_joined_word {s : String} (hs : Grammatical s) {ss : List Script}
    (h : ∀ t ∈ ss, t.Layout text separator d) : (joined (fixed s) ss).Layout text separator d :=
  layout_joined (p := .fixed s) rfl hs trivial h

theorem layout_commaSeparated {ss : List Script} (h : ∀ s ∈ ss, s.Layout text separator d) :
    (commaSeparated ss).Layout text separator d := layout_joined_word (by decide) h

theorem trailer_parenthesized {s : Script} (h : s.Layout text separator d) :
    (parenthesized s).Trailer text separator d :=
  (h.append (trailer_word (by decide))).word (by decide)

theorem trailer_optional {keyword : String} (hk : Grammatical keyword) {o : Option Script}
    (h : ∀ s ∈ o, s.Layout text separator d) : (optional keyword o).Trailer text separator d := by
  cases o with
  | none => exact trailer_nil
  | some s => exact (h s rfl).word hk

theorem trailer_clause {keyword : String} (hk : Grammatical keyword) {ss : List Script}
    (h : ∀ s ∈ ss, s.Layout text separator d) : (clause keyword ss).Trailer text separator d := by
  cases ss with
  | nil => exact trailer_nil
  | cons s ss => exact (layout_commaSeparated h).word hk

theorem trailer_returning {ss : List Script} (h : ∀ s ∈ ss, s.Layout text separator d) :
    (returning ss).Trailer text separator d := by
  unfold returning Script.Trailer pieces
  split
  · exact trailer_clause (by decide) h
  · exact trailer_nil

theorem trailer_spaced (hd : d.Doubling) {s : Script} (h : s.Layout text separator d) :
    (spaced s).Trailer text separator d := by
  rw [Script.Trailer, pieces, spaced_of_doubling hd]
  split
  · exact trailer_nil
  · exact h.word (by decide)

end Script

section Statements

variable {text separator : String → Prop} {d : Dialect}

theorem Segment.layout_flag {word : String} (hw : Grammatical word) (present : Bool) {s : Script}
    (h : s.Layout text separator d) :
    ((flag word present).script ++ s).Layout text separator d := by
  cases present
  · exact h
  · exact (h.word hw).toLayout

/-- A segment other than bare items starts with a seam. -/
theorem Segment.trailer_script (hd : d.Doubling) (hn : ∀ n : UInt64, text (toString n.toNat))
    {g : Segment Script} (hw : ∀ w ∈ g.words, Grammatical w) (hi : ∀ ss, g ≠ .items ss)
    (h : ∀ c ∈ g.parts, c.Layout text separator d) : g.script.Trailer text separator d := by
  cases g with
  | flag word present =>
    cases present
    · exact trailer_nil
    · exact trailer_word (hw word (.head _))
  | items ss => exact absurd rfl (hi ss)
  | clause keyword ss => exact Script.trailer_clause (hw keyword (.head _)) h
  | joins ss =>
    cases ss with
    | nil => exact trailer_nil
    | cons s ss => exact (Script.layout_joined_word (by decide) h).word (by decide)
  | optional keyword o =>
    exact Script.trailer_optional (hw keyword (.head _)) fun c hc => h c (Option.mem_toList.2 hc)
  | count keyword n =>
    refine Script.trailer_optional (hw keyword (.head _)) fun c hc => ?_
    obtain ⟨m, -, rfl⟩ := Option.map_eq_some_iff.1 hc
    exact layout_singleton (hn m)
  | locking o =>
    cases o with
    | none => exact trailer_nil
    | some c => exact Script.trailer_spaced hd (h c (.head _))

namespace Select

theorem grammatical_words {ε : Type} (s : Select ε) (c : Clause) :
    ∀ w ∈ (s.segment c).words, Grammatical w := by
  cases c <;> simp only [segment, Segment.words] <;> decide

theorem trailer_clausesScript (hd : d.Doubling) (hn : ∀ n : UInt64, text (toString n.toNat))
    {s : Select Script} (h : ∀ c ∈ s.parts, c.Layout text separator d) {cs : List Clause}
    (hcs : .columns ∉ cs) : (s.clausesScript cs).Trailer text separator d := by
  induction cs with
  | nil => exact trailer_nil
  | cons c cs ih =>
    rw [List.mem_cons, not_or] at hcs
    have hi : ∀ ss, s.segment c ≠ .items ss := by
      cases c <;> first | exact absurd rfl hcs.1 | exact nofun
    have hc := Segment.trailer_script hd hn (s.grammatical_words c) hi fun e he =>
      h e (mem_parts_of_segment he)
    exact hc.append (ih hcs.2)

theorem layout_script (hd : d.Doubling) (hn : ∀ n : UInt64, text (toString n.toNat))
    {s : Select Script} (h : ∀ c ∈ s.parts, c.Layout text separator d) :
    s.script.Layout text separator d := by
  have hrest : (s.clausesScript (Clause.inOrder.drop 2)).Trailer text separator d :=
    trailer_clausesScript hd hn h (by decide)
  have hcolumns : (s.segment .columns).script.Layout text separator d :=
    Script.layout_commaSeparated (forall_parts.1 h).1
  have hselect :
      ((s.segment .distinct).script ++ ((s.segment .columns).script ++
        s.clausesScript (Clause.inOrder.drop 2))).Layout text separator d :=
    Segment.layout_flag (by decide) s.distinct (hcolumns.append hrest)
  exact (hselect.word (by decide)).toLayout

end Select

theorem Insert.layout_script {s : Insert Script}
    (h : ∀ c ∈ s.parts, c.Layout text separator d) : s.script.Layout text separator d := by
  obtain ⟨ht, hc, hv, hr⟩ := forall_parts.1 h
  have hcolumns : (columnsScript s.columns).Trailer text separator d := by
    cases hs : s.columns with
    | nil => exact trailer_nil
    | cons c cs =>
      exact (Script.trailer_parenthesized (Script.layout_commaSeparated (hs ▸ hc))).toLayout.word
        (by decide)
  have hrows : ∀ c ∈ s.values.map rowScript, c.Layout text separator d := by
    intro c hc
    obtain ⟨row, hrow, rfl⟩ := List.mem_map.1 hc
    exact (Script.trailer_parenthesized (Script.layout_commaSeparated (hv row hrow))).toLayout
  exact (ht.word (by decide)).toLayout.append hcolumns
    |>.append (Script.trailer_clause (by decide) hrows)
    |>.append (Script.trailer_returning hr)

theorem Update.layout_script {s : Update Script}
    (h : ∀ c ∈ s.parts, c.Layout text separator d) : s.script.Layout text separator d := by
  obtain ⟨ht, hv, hp, hr⟩ := forall_parts.1 h
  have htable := ht.append ((Script.layout_commaSeparated hv).word (s := " SET ") (by decide))
  have hwhere : (Script.optional " WHERE " s.predicate).Trailer text separator d :=
    Script.trailer_optional (by decide) hp
  have := (htable.word (s := "UPDATE ") (by decide)).toLayout.append hwhere
    |>.append (Script.trailer_returning hr)
  simpa only [script, Script.Layout, Script.pieces_append, Script.pieces, List.append_assoc,
    List.cons_append, List.nil_append] using this

theorem Delete.layout_script {s : Delete Script}
    (h : ∀ c ∈ s.parts, c.Layout text separator d) : s.script.Layout text separator d := by
  obtain ⟨ht, hp, hr⟩ := forall_parts.1 h
  exact (ht.word (by decide)).toLayout.append (Script.trailer_optional (by decide) hp)
    |>.append (Script.trailer_returning hr)

end Statements

/-- The pieces of a tree are laid out with seams between them. -/
theorem Expr.layout_pieces {text separator : String → Prop} {d : Dialect} (hd : d.Doubling)
    (hw : ∀ w, text (d.wording w)) (hn : ∀ n : UInt64, text (toString n.toNat)) {e : Expr Empty}
    (h : e.Throughout (Spelt text separator)) : e.script.Layout text separator d := by
  induction h with
  | @node e here below ih =>
    have all {xs : List (Expr Empty)} (h : ∀ x ∈ xs, x ∈ e.children) :
        ∀ s ∈ xs.map script, s.Layout text separator d := by
      intro s hs
      obtain ⟨x, hx, rfl⟩ := List.mem_map.1 hs
      exact ih x (h x hx)
    cases e with
    | own n => exact n.elim
    | raw s => exact layout_singleton here
    | identifier n => exact layout_singleton trivial
    | bind v => exact layout_singleton trivial
    | operator op => exact layout_singleton op.grammatical_text
    | lock mode => exact layout_singleton (hw _)
    | literal l =>
      cases l with
      | all | null => exact layout_word (by decide)
      | default | boolean b => exact layout_singleton (hw _)
      | numeric s => exact layout_singleton here
      | string s => exact layout_singleton trivial
    | column t n =>
      have hn : Script.Layout text separator d (if n = "*" then .fixed "*" else .name n) := by
        split
        · exact layout_word (by decide)
        · exact layout_singleton (p := .name n) trivial
      cases t with
      | none => exact hn
      | some t => exact (layout_singleton (p := .name t) trivial).append (hn.word (s := ".") (by decide))
    | aliased x n =>
      have hx := ih x (by simp [children])
      have hn : Piece.Layout text separator [.name n] := layout_singleton trivial
      have := hx.append (hn.word (s := " AS ") (by decide))
      simpa only [script_aliased, Script.Layout, Script.pieces_append, Script.pieces,
        List.append_assoc, List.cons_append, List.nil_append] using this
    | binds vs =>
      refine (Script.trailer_parenthesized (Script.layout_commaSeparated fun s hs => ?_)).toLayout
      obtain ⟨v, -, rfl⟩ := List.mem_map.1 hs
      exact layout_singleton trivial
    | list xs x =>
      obtain ⟨s, rfl, hs⟩ := here
      have hx := ih (raw s) (by simp [children])
      rw [script_list]
      exact Script.layout_joined (p := .verbatim s) rfl (hx.fits _ (by simp [Script.pieces])) hs
        (all fun y hy => by simp [children, hy])
    | group x => exact (Script.trailer_parenthesized (ih x (by simp [children]))).toLayout
    | binary x op y =>
      have hx := ih x (by simp [children])
      have hy := ih y (by simp [children])
      have hop := (hy.word (s := " ") (by decide)).word op.grammatical_text
      simpa only [script_binary, Script.Layout, Script.pieces_append, Script.pieces,
        List.append_assoc, List.cons_append, List.nil_append] using
        hx.append (hop.word (s := " ") (by decide))
    | function n xs =>
      have hn : Piece.Layout text separator [.verbatim n] := layout_singleton here
      rw [script_function]
      exact hn.append (Script.trailer_parenthesized (Script.layout_commaSeparated (all fun x hx => hx)))
    | join m x o =>
      have hx := ih x (by simp [children])
      have ho : ∀ s ∈ o.map script, s.Layout text separator d := by
        intro s hs
        obtain ⟨y, hy, rfl⟩ := Option.map_eq_some_iff.1 hs
        exact ih y (by simp [children, hy])
      rw [script_join]
      exact ((hx.word (s := " ") (by decide)).word m.grammatical_text).toLayout.append
        (Script.trailer_optional (by decide) ho)
    | order x direction =>
      have hx := ih x (by simp [children])
      have hd : Piece.Layout text separator [.fixed direction.text] :=
        layout_word direction.grammatical_text
      simpa only [script_order, Script.Layout, Script.pieces_append, Script.pieces,
        List.append_assoc, List.cons_append, List.nil_append] using hx.append (hd.word (by decide))
    | spaced x => exact (Script.trailer_spaced hd (ih x (by simp [children]))).toLayout
    | select s =>
      rw [script_select]
      exact Select.layout_script hd hn (s.parts_map script ▸ all fun x hx => hx)
    | insert s =>
      rw [script_insert]
      exact Insert.layout_script (s.parts_map script ▸ all fun x hx => hx)
    | update s =>
      rw [script_update]
      exact Update.layout_script (s.parts_map script ▸ all fun x hx => hx)
    | delete s =>
      rw [script_delete]
      exact Delete.layout_script (s.parts_map script ▸ all fun x hx => hx)

end BoundSql
