import BoundSql.Proofs.Expr.Layout
import BoundSql.Proofs.Template
import BoundSql.Proofs.Text.Quoted
import BoundSql.Proofs.Text.Reader

/-! Reading placeholders back out of the text of a query. A numbered placeholder is a mark and the
digits behind it, so it is found again as long as nothing else brings a mark into the text and
nothing that starts with a digit is written right behind it. -/

namespace BoundSql

/-- The number at the front of a text, if it starts with a digit. -/
def leadingNumber (cs : List Char) : Option Nat :=
  if cs.takeWhile Char.isDigit = [] then none
  else some (Nat.ofDigitChars 10 (cs.takeWhile Char.isDigit) 0)

/-- A text is cut at each mark, and the number at the front of each part behind a mark is read. -/
def numbersBehind (mark : Char) (cs : List Char) : List (Option Nat) :=
  ((cs.splitOn mark).drop 1).map leadingNumber

def Undigited (s : String) : Prop := ∀ c ∈ s.toList.head?, c.isDigit = false

section Numbers

variable {mark : Char}

theorem leadingNumber_toDigits {n : Nat} {r : List Char} (hr : ∀ c ∈ r.head?, c.isDigit = false) :
    leadingNumber (Nat.toDigits 10 n ++ r) = some n := by
  have hdigits := Reader.takeWhile_append_of_head (Reader.isDigit_of_mem_toDigits (n := n)) hr
  rw [leadingNumber, hdigits, if_neg (Nat.toDigits_ne_nil), Nat.ofDigitChars_ten_toDigits]

/-- The first part of a text starts with the number that the text starts with. -/
theorem exists_splitOn (hm : mark.isDigit = false) (cs : List Char) :
    ∃ part parts, cs.splitOn mark = part :: parts ∧
      part.takeWhile Char.isDigit = cs.takeWhile Char.isDigit := by
  induction cs with
  | nil => exact ⟨[], [], rfl, rfl⟩
  | cons c cs ih =>
    obtain ⟨part, parts, hs, hp⟩ := ih
    rw [List.splitOn_cons_eq_if_modifyHead, hs]
    by_cases hc : c = mark
    · subst hc
      exact ⟨[], part :: parts, by simp, by simp [hm]⟩
    · exact ⟨c :: part, parts, by simp [hc], by simp [List.takeWhile_cons, hp]⟩

theorem numbersBehind_mark (hm : mark.isDigit = false) (cs : List Char) :
    numbersBehind mark (mark :: cs) = leadingNumber cs :: numbersBehind mark cs := by
  obtain ⟨part, parts, hs, hp⟩ := exists_splitOn hm cs
  rw [numbersBehind, numbersBehind, List.splitOn_cons_eq_if_modifyHead, hs]
  simp [leadingNumber, hp]

theorem numbersBehind_append {s : List Char} (h : mark ∉ s) (cs : List Char) :
    numbersBehind mark (s ++ cs) = numbersBehind mark cs := by
  induction s with
  | nil => rfl
  | cons c s ih =>
    rw [List.mem_cons, not_or] at h
    rw [← ih h.2, List.cons_append, numbersBehind, numbersBehind,
      List.splitOn_cons_eq_if_modifyHead, if_neg (by simpa using Ne.symm h.1)]
    cases (s ++ cs).splitOn mark <;> rfl

end Numbers

namespace Template

variable {mark : Char} {t : Template}

/-- A mark that stands in none of the texts. -/
def Unmarked (mark : Char) (t : Template) : Prop := ∀ s ∈ t.first :: t.rest, mark ∉ s.toList

theorem head_fillRest {f : Nat → String} (hf : ∀ n, ∃ digits, (f n).toList = mark :: digits)
    (n : Nat) (ss : List String) : ∀ c ∈ (fillRest f n ss).toList.head?, c = mark := by
  intro c hc
  cases ss with
  | nil => cases hc
  | cons s ss =>
    obtain ⟨digits, hd⟩ := hf (n + 1)
    rw [fillRest, String.toList_append, String.toList_append, hd] at hc
    exact (Option.some.inj hc).symm

/-- The numbers of the placeholders are read back one after another. -/
theorem numbersBehind_fill {f : Nat → String} (hm : mark.isDigit = false)
    (hf : ∀ n, (f n).toList = mark :: Nat.toDigits 10 n) (ht : t.Unmarked mark)
    (hd : ∀ s ∈ t.rest, Undigited s) (n : Nat) :
    numbersBehind mark (t.fill f n).toList = (List.range' (n + 1) t.rest.length).map some := by
  obtain ⟨s, ss⟩ := t
  obtain ⟨hs, hss⟩ := List.forall_mem_cons.1 ht
  rw [fill, String.toList_append, numbersBehind_append hs]
  clear ht hs
  induction ss generalizing n with
  | nil => rfl
  | cons s ss ih =>
    obtain ⟨hs, hss⟩ := List.forall_mem_cons.1 hss
    obtain ⟨hd, hds⟩ := List.forall_mem_cons.1 hd
    -- behind the digits comes the text, which starts with no digit, or the next mark
    have hr : ∀ c ∈ (s.toList ++ (fillRest f (n + 1) ss).toList).head?, c.isDigit = false := by
      intro c hc
      cases hl : s.toList with
      | nil =>
        rw [hl] at hc
        rw [head_fillRest (fun n => ⟨_, hf n⟩) _ _ c hc, hm]
      | cons a l =>
        rw [hl] at hc
        exact hd c (by rw [hl]; exact hc)
    have hdigits : mark ∉ Nat.toDigits 10 (n + 1) ++ s.toList := by
      rw [List.mem_append, not_or]
      refine ⟨fun h => ?_, hs⟩
      rw [Reader.isDigit_of_mem_toDigits _ h] at hm
      cases hm
    rw [fillRest, String.toList_append, String.toList_append, hf, List.append_assoc,
      List.cons_append, numbersBehind_mark hm, leadingNumber_toDigits hr, ← List.append_assoc,
      numbersBehind_append hdigits, ih (n + 1) hds hss, List.length_cons, List.range'_succ,
      List.map_cons]

/-- Placeholders that are the mark and nothing else are counted. -/
theorem count_fill {f : Nat → String} (hf : ∀ n, (f n).toList = [mark]) (ht : t.Unmarked mark)
    (n : Nat) : (t.fill f n).toList.count mark = t.rest.length := by
  obtain ⟨s, ss⟩ := t
  obtain ⟨hs, hss⟩ := List.forall_mem_cons.1 ht
  rw [fill, String.toList_append, List.count_append, List.count_eq_zero_of_not_mem hs, Nat.zero_add]
  clear ht hs
  induction ss generalizing n with
  | nil => rfl
  | cons s ss ih =>
    obtain ⟨hs, hss⟩ := List.forall_mem_cons.1 hss
    rw [fillRest, String.toList_append, String.toList_append, hf, List.count_append,
      List.count_append, List.count_singleton_self, List.count_eq_zero_of_not_mem hs, ih _ hss,
      List.length_cons, Nat.add_zero, Nat.add_comm]

theorem unmarked_ofPieces {d : Dialect} {ps : List Piece}
    (h : ∀ p ∈ ps, p.values = [] → mark ∉ (p.text d 0).toList) : (ofPieces d ps).Unmarked mark := by
  induction ps with
  | nil => simp [Unmarked, ofPieces]
  | cons p ps ih =>
    obtain ⟨hp, hps⟩ := List.forall_mem_cons.1 h
    obtain ⟨hs, hss⟩ := List.forall_mem_cons.1 (ih hps)
    have text (hv : p.values = []) : mark ∉ (p.text d 0 ++ (ofPieces d ps).first).toList := by
      rw [String.toList_append, List.mem_append, not_or]
      exact ⟨hp hv, hs⟩
    cases p with
    | bind v => exact List.forall_mem_cons.2 ⟨List.not_mem_nil, List.forall_mem_cons.2 ⟨hs, hss⟩⟩
    | fixed | verbatim | name | string => exact List.forall_mem_cons.2 ⟨text rfl, hss⟩

end Template

/-! What is written behind a placeholder is a word of the grammar or the separator of a list. -/

theorem Undigited.append {s : String} (hne : s ≠ "") (h : Undigited s) (t : String) :
    Undigited (s ++ t) := by
  intro c hc
  rw [String.toList_append] at hc
  cases hl : s.toList with
  | nil => exact absurd (String.toList_eq_nil_iff.1 hl) hne
  | cons a l =>
    rw [hl] at hc
    exact h c (by rw [hl]; exact hc)

theorem isDigit_of_isGrammatical {c : Char} (h : isGrammatical c = true) : c.isDigit = false := by
  rcases Bool.or_eq_true_iff.1 h with hu | hs
  · have hletter : 'A'.val ≤ c.val := (of_decide_eq_true hu).1
    have hle : 65 ≤ c.val.toNat := UInt32.le_iff_toNat_le.1 hletter
    refine Bool.and_eq_false_iff.2 (.inr (decide_eq_false fun h => ?_))
    have hdigit : c.val.toNat ≤ 57 := UInt32.le_iff_toNat_le.1 h
    omega
  · have hall : " (),.*=<>+-/%|".toList.all (!·.isDigit) = true := by decide
    simpa using List.all_eq_true.1 hall c (by simpa using hs)

theorem undigited_of_grammatical {s : String} (h : Grammatical s) : Undigited s := fun c hc =>
  isDigit_of_isGrammatical (List.all_eq_true.1 h.2 c (List.mem_of_mem_head? hc))

namespace Template

open Piece

variable {d : Dialect} {text : String → Prop} {ps : List Piece}

/-- A row of pieces that starts with a seam starts with no digit. -/
theorem undigited_first (h : Piece.Trailer text (fun s => s ≠ "" ∧ Undigited s) ps) :
    Undigited (ofPieces d ps).first := by
  cases ps with
  | nil => intro c hc; cases hc
  | cons p ps =>
    have hs := h.head p rfl
    have hf := h.fits p List.mem_cons_self
    cases p with
    | fixed s => exact (undigited_of_grammatical hf).append hf.1 _
    | verbatim s => exact hs.2.append hs.1 _
    | name | string | bind => exact hs.elim

theorem undigited_rest (h : Piece.Layout text (fun s => s ≠ "" ∧ Undigited s) ps) :
    ∀ s ∈ (ofPieces d ps).rest, Undigited s := by
  induction ps with
  | nil => intro s hs; cases hs
  | cons p ps ih =>
    have hps : Piece.Layout text (fun s => s ≠ "" ∧ Undigited s) ps :=
      ⟨(List.forall_mem_cons.1 h.fits).2, h.apart.tail⟩
    cases p with
    | bind v =>
      have hnext : Piece.Trailer text (fun s => s ≠ "" ∧ Undigited s) ps :=
        ⟨hps, fun p hp => (h.apart.rel_head? hp).resolve_left id⟩
      exact List.forall_mem_cons.2 ⟨undigited_first hnext, ih hps⟩
    | fixed | verbatim | name | string => exact ih hps

end Template

/-- A character that only the placeholders of a dialect bring into a text. -/
structure Dialect.Marks (d : Dialect) (mark : Char) : Prop where
  grammar : isGrammatical mark = false
  digit : mark.isDigit = false
  doubling : d.Doubling
  quote : mark ≠ d.quote ∧ mark ≠ '\''
  wording : ∀ w, mark ∉ (d.wording w).toList

theorem Dialect.marks_postgres : postgres.Marks '$' :=
  ⟨by decide, by decide, rfl, by decide, by rintro ((_ | _) | _ | (_ | _)) <;> decide⟩

theorem Dialect.marks_question {d : Dialect} (h : d ∈ [generic, .mysql, .sqlite]) :
    d.Marks '?' := by
  simp only [List.mem_cons, List.not_mem_nil, or_false] at h
  rcases h with rfl | rfl | rfl <;>
    exact ⟨by decide, by decide, rfl, by decide, by rintro ((_ | _) | _ | (_ | _)) <;> decide⟩

namespace Expr

variable {d : Dialect} {mark : Char} {e : Expr Empty}

/-- The caller writes no mark, and each list has a separator that is not empty and starts with no
digit. -/
structure Unmarked (d : Dialect) (mark : Char) (e : Expr Empty) : Prop where
  texts : e.Throughout (Spelt (fun s => mark ∉ s.toList) fun s => s ≠ "" ∧ Undigited s)
  names : ∀ s ∈ e.names d.returning, mark ∉ s.toList

theorem sql_query (hd : d.Visible) (e : Expr Empty) :
    (Query.of d e).sql = (e.template d).fill d.placeholder 0 := by
  have hq : Query.of d e = ({} : Query).addPieces d (e.pieces d) := e.writer_apply hd {}
  rw [hq, Query.addPieces, template, Template.fill_ofPieces, String.empty_append]
  rfl

theorem length_binds_query (d : Dialect) (e : Expr Empty) :
    (Query.of d e).binds.length = (e.template d).rest.length := by
  have hb := e.binds_writer d {}
  rw [e.length_rest_template, ← List.nil_append (e.values d.returning), ← hb]
  rfl

theorem Unmarked.layout (hd : d.Marks mark) (h : e.Unmarked d mark) :
    Piece.Layout (fun s => mark ∉ s.toList) (fun s => s ≠ "" ∧ Undigited s) (e.pieces d) := by
  refine layout_pieces hd.doubling hd.wording (fun n hn => ?_) h.texts
  rw [Nat.toString_eq_ofList_toDigits, String.toList_ofList] at hn
  have := Reader.isDigit_of_mem_toDigits mark hn
  rw [hd.digit] at this
  cases this

theorem Unmarked.template (hd : d.Marks mark) (h : e.Unmarked d mark) :
    (e.template d).Unmarked mark := by
  have hl := h.layout hd
  have hname {p : Piece} {s : String} (hp : p ∈ e.pieces d)
      (hs : s ∈ p.visit { name := fun n => [n], string := fun s => [s] }) : mark ∉ s.toList := by
    refine h.names s ?_
    rw [Expr.names, ← e.pieces_visit]
    exact List.mem_flatMap.2 ⟨p, hp, hs⟩
  refine Template.unmarked_ofPieces fun p hp hv hm => ?_
  cases p with
  | fixed s =>
    have := List.all_eq_true.1 (hl.fits _ hp).2 mark hm
    rw [hd.grammar] at this
    cases this
  | verbatim s => exact hl.fits _ hp hm
  | name s =>
    have hm : mark ∈ (d.quoted s).toList := hm
    rw [hd.doubling] at hm
    exact (Quoted.mem_token.1 hm).elim hd.quote.1 (hname hp (.head _))
  | string s => exact (Quoted.mem_token.1 hm).elim hd.quote.2 (hname hp (.head _))
  | bind v => cases hv

/-- Each placeholder of a query is found again in its text: with numbers, they are read as one, two
and so on up to the number of the values, and without, there are as many as values. -/
theorem placeholders_are_read_back (e : Expr Empty) :
    (e.Unmarked .postgres '$' →
      numbersBehind '$' (Query.of .postgres e).sql.toList =
        (List.range' 1 (Query.of .postgres e).binds.length).map some) ∧
    ∀ d ∈ [Dialect.generic, .mysql, .sqlite], e.Unmarked d '?' →
      (Query.of d e).sql.toList.count '?' = (Query.of d e).binds.length := by
  constructor
  · intro h
    have hm := Dialect.marks_postgres
    have hf (n : Nat) : (Dialect.postgres.placeholder n).toList = '$' :: Nat.toDigits 10 n := by
      show ("$" ++ toString n).toList = _
      rw [String.toList_append, Nat.toString_eq_ofList_toDigits, String.toList_ofList,
        String.toList_ofList]
      rfl
    rw [sql_query (Dialect.visible_of_shipped (by simp [Dialect.shipped])),
      Template.numbersBehind_fill hm.digit hf (h.template hm)
        (Template.undigited_rest (h.layout hm)), length_binds_query]
  · intro d hd h
    have hm := Dialect.marks_question hd
    simp only [List.mem_cons, List.not_mem_nil, or_false] at hd
    have hf (n : Nat) : (d.placeholder n).toList = ['?'] := by
      rcases hd with rfl | rfl | rfl <;> exact (by decide : "?".toList = ['?'])
    have hvisible : d.Visible := fun n hn => by simpa [hn] using hf n
    rw [sql_query hvisible, Template.count_fill hf (h.template hm), length_binds_query]

/-- A number right behind a placeholder and its separator is no part of the placeholder. -/
theorem placeholders_beside_digits :
    let e : Expr Empty :=
      list [bind .null, literal (.numeric "10"), binds [.null, .null]] (raw "-0")
    e.Unmarked .postgres '$' ∧ e.Unmarked .mysql '?' ∧
    (Query.of .postgres e).sql = "$1-010-0($2, $3)" ∧
    numbersBehind '$' (Query.of .postgres e).sql.toList = [some 1, some 2, some 3] ∧
    (Query.of .mysql e).sql.toList.count '?' = 3 := by
  intro e
  have unmarked (d : Dialect) (mark : Char) (hm : mark ∉ "10-0".toList) : e.Unmarked d mark := by
    refine ⟨.node ⟨"-0", rfl, by decide, fun c hc => by cases hc; rfl⟩ fun c hc => ?_, ?_⟩
    · change c ∈ [bind .null, literal (.numeric "10"), binds [.null, .null], raw "-0"] at hc
      simp only [List.mem_cons, List.not_mem_nil, or_false] at hc
      rcases hc with rfl | rfl | rfl | rfl
      · exact .node trivial nofun
      · exact .node (fun h => hm (by simp_all)) nofun
      · exact .node trivial nofun
      · exact .node (fun h => hm (by simp_all)) nofun
    · exact nofun
  have h₁ := unmarked .postgres '$' (by decide)
  have h₂ := unmarked .mysql '?' (by decide)
  obtain ⟨hp, hq⟩ := placeholders_are_read_back e
  exact ⟨h₁, h₂, rfl, hp h₁, hq .mysql (by simp) h₂⟩

end Expr

end BoundSql
