import BoundSql.Proofs.Expr.Layout
import BoundSql.Proofs.Expr.Relabel
import BoundSql.Proofs.Text.Quoted

/-! Scanning the text of a query. A scanner that knows nothing but the three quote characters finds
every name and every string literal of a tree as one token, closed, and with its content intact. -/

namespace BoundSql

def isQuote (c : Char) : Bool := c = '\'' || c = '\"' || c = '\x60'

def Unquoted (s : String) : Prop := s.toList.all (!isQuote ·) = true

instance : DecidablePred Unquoted := fun _ => inferInstanceAs (Decidable (_ = true))

theorem unquoted_iff {s : String} : Unquoted s ↔ ∀ c ∈ s.toList, isQuote c = false := by
  simp [Unquoted]

inductive Lexeme where
  | char (c : Char)
  | quoted (quote : Char) (content : String)
  deriving DecidableEq

namespace Lexeme

/-- A token as a mark, without its content. -/
def mark : Lexeme → Lexeme
  | quoted quote _ => quoted quote ""
  | l => l

def content : Lexeme → List String
  | quoted _ s => [s]
  | _ => []

/-- The quoted tokens of a text and the characters between them, if all tokens are closed. -/
def scan : List Char → Option (List Lexeme)
  | [] => some []
  | c :: r =>
    if isQuote c then
      match _h : Quoted.readBody c r with
      | none => none
      | some (s, t) => (scan t).map (quoted c (String.ofList s) :: ·)
    else (scan r).map (char c :: ·)
termination_by cs => cs.length
decreasing_by
  · have := Quoted.length_readBody ‹_›
    simp only [List.length_cons]
    omega
  · simp

theorem scan_nil : scan [] = some [] := by rw [scan]

theorem scan_unquoted {s : List Char} (h : ∀ c ∈ s, isQuote c = false) (r : List Char) :
    scan (s ++ r) = (scan r).map (s.map char ++ ·) := by
  induction s with
  | nil => simp
  | cons c s ih =>
    have hc : isQuote c = false := h c List.mem_cons_self
    rw [List.cons_append, scan, if_neg (by simp [hc]), ih fun d hd => h d (by simp [hd]),
      Option.map_map]
    rfl

/-- A token is found as it was written unless the same quote follows it. -/
theorem scan_token {quote : Char} (hq : isQuote quote = true) {r : List Char}
    (h : ∀ c ∈ r.head?, c ≠ quote) (s : String) :
    scan ((Quoted.token quote s).toList ++ r) = (scan r).map (quoted quote s :: ·) := by
  have hb := Quoted.readBody_double h s.toList
  rw [Quoted.toList_token, List.cons_append, List.append_assoc, List.singleton_append, scan,
    if_pos hq]
  split
  · simp_all
  · rename_i u v hu
    rw [hb] at hu
    cases hu
    rw [String.ofList_toList]

end Lexeme

/-- A text has no quotes if all its characters are of a kind that no quote is of. -/
theorem unquoted_of_all {s : String} {p : Char → Bool} (h : ∀ c ∈ s.toList, p c = true)
    (hp : p '\'' = false ∧ p '\"' = false ∧ p '\x60' = false) : Unquoted s := by
  refine unquoted_iff.2 fun c hc => ?_
  by_contra hq
  have hpc := h c hc
  simp only [isQuote, Bool.not_eq_false, Bool.or_eq_true, decide_eq_true_eq] at hq
  rcases hq with (rfl | rfl) | rfl
  · exact absurd hpc (by simp [hp.1])
  · exact absurd hpc (by simp [hp.2.1])
  · exact absurd hpc (by simp [hp.2.2])

theorem unquoted_of_grammatical {s : String} (h : Grammatical s) : Unquoted s :=
  unquoted_of_all (List.all_eq_true.1 h.2) (by decide)

theorem unquoted_toString (n : Nat) : Unquoted (toString n) := by
  refine unquoted_of_all (p := Char.isDigit) (fun c hc => ?_) (by decide)
  rw [Nat.toString_eq_ofList_toDigits, String.toList_ofList] at hc
  exact Nat.isDigit_of_mem_toDigits (by decide) (by decide) hc

/-- Only names and string literals are quoted in a dialect. -/
structure Dialect.Plain (d : Dialect) : Prop where
  doubling : d.Doubling
  quote : isQuote d.quote = true
  placeholder : ∀ n, Unquoted (d.placeholder n)
  wording : ∀ w, Unquoted (d.wording w)

theorem Dialect.plain_of_shipped {d : Dialect} (h : d ∈ shipped) : d.Plain := by
  have hdoubling := doubling_of_shipped h
  simp only [shipped, List.mem_cons, List.not_mem_nil, or_false] at h
  have hdollar (n : Nat) : Unquoted ("$" ++ toString n) := by
    rw [Unquoted, String.toList_append, List.all_append, Bool.and_eq_true]
    exact ⟨by decide, unquoted_toString n⟩
  have hquestion (n : Nat) : Unquoted ((fun _ => "?") n) := (by decide : Unquoted "?")
  rcases h with rfl | rfl | rfl | rfl <;>
    refine ⟨hdoubling, by decide, ?_, by rintro ((_ | _) | _ | (_ | _)) <;> decide⟩
  · exact hquestion
  · exact hdollar
  · exact hquestion
  · exact hquestion

/-! The lexemes of pieces, one piece after another. -/

namespace Piece

/-- What the scanner should find in a piece. -/
def lexemes (d : Dialect) (n : Nat) : Piece → List Lexeme
  | name s => [.quoted d.quote s]
  | string s => [.quoted '\'' s]
  | p => (p.text d n).toList.map .char

def scanned (d : Dialect) : Nat → List Piece → List Lexeme
  | _, [] => []
  | n, p :: ps => p.lexemes d n ++ scanned d (n + p.values.length) ps

theorem head_ne_quote {p : Piece} (hf : p.Fits Unquoted) (hs : p.Seam (· ≠ "")) (d : Dialect)
    (n : Nat) (r : String) : ∀ c ∈ (p.text d n ++ r).toList.head?, isQuote c = false := by
  have plain {s : String} (hne : s ≠ "") (hu : Unquoted s) :
      ∀ c ∈ (s ++ r).toList.head?, isQuote c = false := by
    intro c hc
    rw [String.toList_append] at hc
    cases hl : s.toList with
    | nil => exact absurd (String.toList_eq_nil_iff.1 hl) hne
    | cons a l =>
      rw [hl] at hc
      cases hc
      exact unquoted_iff.1 hu c (by simp [hl])
  cases p with
  | fixed s => exact plain hf.1 (unquoted_of_grammatical hf)
  | verbatim s => exact plain hs hf
  | name | string | bind => exact hs.elim

/-- The scanner finds what it should if no two quoted pieces touch. -/
theorem scan_rendered {d : Dialect} (hd : d.Plain) {ps : List Piece}
    (h : Layout Unquoted (· ≠ "") ps) (n : Nat) :
    Lexeme.scan (rendered d n ps).toList = some (scanned d n ps) := by
  induction ps generalizing n with
  | nil => exact Lexeme.scan_nil
  | cons p ps ih =>
    have hfits := List.forall_mem_cons.1 h.fits
    have hrest := ih ⟨hfits.2, h.apart.tail⟩ (n + p.values.length)
    have plain (hu : Unquoted (p.text d n)) : Lexeme.scan (rendered d n (p :: ps)).toList =
        some ((p.text d n).toList.map .char ++ scanned d (n + p.values.length) ps) := by
      rw [rendered_cons, String.toList_append, Lexeme.scan_unquoted (unquoted_iff.1 hu), hrest]
      rfl
    -- behind a token comes nothing, or a seam, which does not start with a quote
    have quoted {q : Char} (hq : isQuote q = true) {s : String} (hp : ¬p.Seam (· ≠ ""))
        (ht : p.text d n = Quoted.token q s) : Lexeme.scan (rendered d n (p :: ps)).toList =
        some (.quoted q s :: scanned d (n + p.values.length) ps) := by
      rw [rendered_cons, String.toList_append, ht, Lexeme.scan_token hq, hrest]
      · rfl
      · intro c hc
        cases ps with
        | nil => cases hc
        | cons p' ps =>
          have hs := (h.apart.rel_head? rfl).resolve_left hp
          have := head_ne_quote (hfits.2 p' List.mem_cons_self) hs d _ _ c hc
          rintro rfl
          simp_all
    cases p with
    | fixed s => exact plain (unquoted_of_grammatical hfits.1)
    | verbatim s => exact plain hfits.1
    | bind v => exact plain (hd.placeholder (n + 1))
    | name s => exact quoted hd.quote id (congrFun hd.doubling s)
    | string s => exact quoted (by decide) id rfl

theorem mark_scanned (d : Dialect) (n : Nat) (ps : List Piece) :
    (scanned d n (ps.map (relabel .forgetNames))).map Lexeme.mark =
      (scanned d n ps).map Lexeme.mark := by
  induction ps generalizing n with
  | nil => rfl
  | cons p ps ih =>
    have hp : ((p.relabel .forgetNames).lexemes d n).map Lexeme.mark =
        (p.lexemes d n).map Lexeme.mark := by cases p <;> rfl
    have hv : (p.relabel .forgetNames).values.length = p.values.length := by cases p <;> rfl
    simp only [List.map_cons, scanned, List.map_append, hp, hv, ih]

theorem content_scanned (d : Dialect) (n : Nat) (ps : List Piece) :
    (scanned d n ps).flatMap Lexeme.content =
      ps.flatMap (visit { name := fun n => [n], string := fun s => [s] }) := by
  have plain (cs : List Char) : (cs.map Lexeme.char).flatMap Lexeme.content = [] := by
    simp [List.flatMap_map, Lexeme.content]
  induction ps generalizing n with
  | nil => rfl
  | cons p ps ih =>
    simp only [scanned, List.flatMap_append, List.flatMap_cons, ih]
    cases p <;> simp [lexemes, visit, plain, Lexeme.content]

end Piece

namespace Expr

/-- The texts that a tree takes from the caller have no quotes, and separators are texts that are
not empty. -/
def Plain (e : Expr Empty) : Prop := e.Throughout (Spelt Unquoted (· ≠ ""))

theorem scan_query {d : Dialect} (hd : d ∈ Dialect.shipped) {e : Expr Empty} (h : e.Plain) :
    Lexeme.scan (Query.of d e).sql.toList = some (Piece.scanned d 0 (e.pieces d)) := by
  have hp := Dialect.plain_of_shipped hd
  have hl := layout_pieces hp.doubling hp.wording (fun n => unquoted_toString n.toNat) h
  have hq : Query.of d e = ({} : Query).addPieces d (e.pieces d) :=
    e.writer_apply (Dialect.visible_of_shipped hd) {}
  rw [hq, Query.addPieces, String.empty_append]
  exact Piece.scan_rendered hp hl 0

/-- No name and no string literal breaks out of its token. The texts of two trees that differ in
names and string literals only have the same tokens in the same places, all of them closed, and the
contents of the tokens are the names and the string literals of each tree. -/
theorem names_stay_in_their_tokens {d : Dialect} (hd : d ∈ Dialect.shipped) {e₁ e₂ : Expr Empty}
    (he : e₁.relabel .forgetNames = e₂.relabel .forgetNames) (h₁ : e₁.Plain) (h₂ : e₂.Plain) :
    ∃ l₁ l₂, Lexeme.scan (Query.of d e₁).sql.toList = some l₁ ∧
      Lexeme.scan (Query.of d e₂).sql.toList = some l₂ ∧
      l₁.map Lexeme.mark = l₂.map Lexeme.mark ∧
      l₁.flatMap Lexeme.content = e₁.names d.returning ∧
      l₂.flatMap Lexeme.content = e₂.names d.returning := by
  refine ⟨_, _, scan_query hd h₁, scan_query hd h₂, ?_, ?_, ?_⟩
  · have hf := Relabelling.faithful_of_doubling .forgetNames (Dialect.doubling_of_shipped hd)
    rw [← Piece.mark_scanned, ← pieces_relabel Relabelling.forgetNames_starless hf, he,
      pieces_relabel Relabelling.forgetNames_starless hf, Piece.mark_scanned]
  · rw [Piece.content_scanned, pieces_visit]; rfl
  · rw [Piece.content_scanned, pieces_visit]; rfl

/-- A column and a string that are all quotes, next to harmless ones. -/
theorem quotes_stay_in_their_tokens :
    let e₁ : Expr Empty := binary (column none "\x60 OR \x60") .equal (literal (.string "' OR '"))
    let e₂ : Expr Empty := binary (column none "a") .equal (literal (.string "b"))
    .mysql ∈ Dialect.shipped ∧ e₁.relabel .forgetNames = e₂.relabel .forgetNames ∧
    e₁.Plain ∧ e₂.Plain ∧
    ∃ l₁ l₂, Lexeme.scan (Query.of .mysql e₁).sql.toList = some l₁ ∧
      Lexeme.scan (Query.of .mysql e₂).sql.toList = some l₂ ∧
      l₁.map Lexeme.mark = l₂.map Lexeme.mark ∧
      l₁.flatMap Lexeme.content = ["\x60 OR \x60", "' OR '"] ∧
      l₂.flatMap Lexeme.content = ["a", "b"] := by
  intro e₁ e₂
  have hd : .mysql ∈ Dialect.shipped := by simp [Dialect.shipped]
  have plain (n s : String) :
      (binary (column none n) .equal (literal (.string s)) : Expr Empty).Plain := by
    refine .node trivial fun c hc => ?_
    simp only [children, List.mem_cons, List.not_mem_nil, or_false] at hc
    rcases hc with rfl | rfl <;> exact .node trivial (by simp [children])
  exact ⟨hd, rfl, plain _ _, plain _ _,
    @names_stay_in_their_tokens .mysql hd e₁ e₂ rfl (plain _ _) (plain _ _)⟩

end Expr

end BoundSql
