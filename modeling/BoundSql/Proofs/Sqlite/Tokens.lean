import BoundSql.Proofs.Text.Quoted
import BoundSql.Proofs.Text.Reader
import BoundSql.Sqlite.Declaration

/-! The words and signs of a text, from its front. -/

namespace BoundSql.Sqlite

abbrev Token : Type := TokenKind × List Char

/-- The words and signs of a text without what stands between them. -/
def tokens (cs : List Char) : List Token := (TokenKind.split cs).filter (·.1 ≠ .blank)

open TokenKind Reader

theorem tokens_nil : tokens [] = [] := by rw [tokens, split]; rfl

theorem tokens_of_first {c : Char} {s r : List Char} {kind : TokenKind}
    (h : first c (s ++ r) = (kind, s.length)) (hk : kind ≠ .blank) :
    tokens (c :: (s ++ r)) = (kind, c :: s) :: tokens r := by
  rw [tokens, split, h]
  simp [hk, tokens]

theorem tokens_space {c : Char} (hc : isSpaceOrTab c = false) (r : List Char) :
    tokens (' ' :: c :: r) = tokens (c :: r) := by
  have hfirst : first ' ' (c :: r) = (.blank, 0) := by
    rw [first, if_pos (by decide), List.takeWhile_cons, if_neg (by simp [hc])]
    rfl
  rw [tokens, split, hfirst]
  rfl

/-- The signs that stand for themselves, whatever follows them. -/
def signs : List Char := ['*', ',', '.', '=', '?']

theorem isSpaceOrTab_of_mem_signs {c : Char} (hc : c ∈ signs) : isSpaceOrTab c = false := by
  have h : signs.all (!isSpaceOrTab ·) = true := by decide
  simpa using List.all_eq_true.1 h c hc

theorem tokens_sign {c : Char} (hc : c ∈ signs) (r : List Char) :
    tokens (c :: r) = (.sign, [c]) :: tokens r := by
  refine tokens_of_first (s := []) ?_ (by decide)
  have : c = '*' ∨ c = ',' ∨ c = '.' ∨ c = '=' ∨ c = '?' := by simpa [signs] using hc
  rcases this with rfl | rfl | rfl | rfl | rfl <;> rfl

theorem ne_of_isAlphanum {c x : Char} (hc : c.isAlphanum = true) (hx : x.isAlphanum = false) :
    c ≠ x := by
  rintro rfl
  rw [hc] at hx
  cases hx

theorem isSpaceOrTab_of_isAlphanum {c : Char} (hc : c.isAlphanum = true) :
    isSpaceOrTab c = false := by
  have ne {x : Char} (hx : x.isAlphanum = false) : c ≠ x := ne_of_isAlphanum hc hx
  simp [isSpaceOrTab, isSpace, ne (x := ' ') rfl, ne (x := '\t') rfl, ne (x := '\n') rfl,
    ne (x := '\x0c') rfl, ne (x := '\r') rfl, ne (x := '\x0b') rfl]

theorem isAlpha_toUpper_of_isDigit {c : Char} (h : c.isDigit = true) :
    c.toUpper.isAlpha = false := by
  have hle : c.toNat ≤ '9'.toNat :=
    UInt32.le_iff_toNat_le.1 (of_decide_eq_true (Bool.and_eq_true_iff.1 h).2)
  have below (x : Char) (hx : '9'.toNat < x.toNat) : ¬x.val ≤ c.val := fun hxc =>
    absurd (Nat.lt_of_lt_of_le hx (UInt32.le_iff_toNat_le.1 hxc)) (Nat.not_lt.2 hle)
  have hc : c.toUpper = c := dif_neg fun hlow => below 'a' (by decide) hlow.1
  rw [hc]
  exact Bool.or_eq_false_iff.2 ⟨decide_eq_false fun hupper => below 'A' (by decide) hupper.1,
    Bool.and_eq_false_iff.2 (.inl (decide_eq_false (below 'a' (by decide))))⟩

theorem Ends.not_isWordCharacter {r : List Char} (h : Ends r) :
    ∀ c ∈ r.head?, isWordCharacter c = false := by
  intro c hc
  rcases h c hc with rfl | rfl <;> rfl

theorem tokens_word {c : Char} {s r : List Char} (hs : ∀ x ∈ c :: s, x.isAlphanum = true)
    (hr : Ends r) : tokens (c :: s ++ r) = (.word, c :: s) :: tokens r := by
  refine tokens_of_first ?_ (by decide)
  have hc : c.isAlphanum = true := hs c List.mem_cons_self
  have hword : ∀ x ∈ s, isWordCharacter x = true := fun x hx => by
    simp [isWordCharacter, hs x (.tail c hx)]
  have ne {x : Char} (hx : x.isAlphanum = false) : c ≠ x := ne_of_isAlphanum hc hx
  have hspace : isSpace c = false := (Bool.or_eq_false_iff.1 (isSpaceOrTab_of_isAlphanum hc)).1
  have hquote : opensQuoted c = false := by
    simp [opensQuoted, ne (x := '\'') rfl, ne (x := '\"') rfl, ne (x := '\x60') rfl,
      ne (x := '[') rfl]
  have hlength := congrArg List.length
    (takeWhile_append_of_head hword (Ends.not_isWordCharacter hr))
  simp [first, hspace, hquote, ne (x := '\ufeff') rfl, ne (x := '-') rfl, ne (x := '/') rfl,
    isWordCharacter, hc] at hlength ⊢
  exact hlength

theorem quotedLength_double {quote : Char} (hq : quote ≠ ']') {r : List Char}
    (h : ∀ c ∈ r.head?, c ≠ quote) (s : List Char) :
    quotedLength quote (Quoted.double quote s ++ quote :: r) =
      (Quoted.double quote s).length + 1 := by
  induction s with
  | nil =>
    cases r with
    | nil => rfl
    | cons c r => simp [quotedLength, h c rfl]
  | cons c s ih =>
    by_cases hc : c = quote
    · subst hc
      simp [quotedLength, hq, ih]
    · rw [Quoted.double_cons_of_ne hc, List.cons_append, List.length_cons, ← ih]
      cases hl : Quoted.double quote s ++ quote :: r with
      | nil => simp at hl
      | cons d t => simp [quotedLength, hc]

/-- A name between quotes is one token up to the quote that is not doubled. -/
theorem tokens_name (n : String) {r : List Char} (h : ∀ c ∈ r.head?, c ≠ '\"') :
    tokens ((Quoted.token '\"' n).toList ++ r) =
      (.quoted, (Quoted.token '\"' n).toList) :: tokens r := by
  rw [Quoted.toList_token, List.cons_append]
  refine tokens_of_first ?_ (by decide)
  have hlength := quotedLength_double (by decide) h n.toList
  rw [List.append_assoc, List.singleton_append, List.length_append, List.length_singleton,
    ← hlength]
  rfl

end BoundSql.Sqlite
