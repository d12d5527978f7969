import Mathlib.Algebra.Group.Nat.Even
import Mathlib.Data.List.DropRight
import BoundSql.Expr.Writer
import BoundSql.Proofs.Text.Quoted

/-! String literals as MySQL reads them by default: a backslash takes the character behind it into the
string, a quote too. A literal doubles the quotes of its string and nothing else, so it is read as one
piece exactly if the backslashes in front of each quote, and those at the end, can be paired off. -/

namespace BoundSql.MySql

/-- The content of a literal whose opening quote has been read, and what follows it. -/
def readBody : List Char → Option (List Char × List Char)
  | [] => none
  | [c] => if c = '\'' then some ([], []) else none
  | c :: c' :: r =>
    if c = '\\' then (readBody r).map fun (s, t) => (c' :: s, t)
    else if c ≠ '\'' then (readBody (c' :: r)).map fun (s, t) => (c :: s, t)
    else if c' = '\'' then (readBody r).map fun (s, t) => ('\'' :: s, t)
    else some ([], c' :: r)

/-- The content of a literal and what follows it. -/
def read : List Char → Option (String × List Char)
  | [] => none
  | c :: r => if c = '\'' then (readBody r).map fun (s, t) => (String.ofList s, t) else none

/-- The text of a string literal. -/
def literalText (s : String) : String :=
  (Query.of .mysql (.literal (.string s) : Expr Empty)).sql

/-- The backslashes that a text ends with. -/
def backslashesAtEnd (p : List Char) : Nat := (p.rtakeWhile (· = '\\')).length

/-- In front of each quote, and at the end, stands an even number of backslashes. -/
def Paired (s : List Char) : Prop :=
  ∀ p t, s = p ++ t → (∀ c ∈ t.head?, c = '\'') → Even (backslashesAtEnd p)

variable {c : Char} {r s t u : List Char}

theorem toList_literalText (s : String) :
    (literalText s).toList = '\'' :: (Quoted.double '\'' s.toList ++ ['\'']) := by
  have : literalText s = "" ++ Quoted.token '\'' s := rfl
  rw [this, String.empty_append, Quoted.toList_token]

/-! Reading, one step at a time. -/

theorem readBody_backslash (c : Char) (r : List Char) :
    readBody ('\\' :: c :: r) = (readBody r).map fun (s, t) => (c :: s, t) := if_pos rfl

theorem readBody_plain (hb : c ≠ '\\') (hq : c ≠ '\'') (r : List Char) :
    readBody (c :: r) = (readBody r).map fun (s, t) => (c :: s, t) := by
  cases r with
  | nil => exact if_neg hq
  | cons c' r => exact (if_neg hb).trans (if_pos hq)

theorem readBody_quotes (r : List Char) :
    readBody ('\'' :: '\'' :: r) = (readBody r).map fun (s, t) => ('\'' :: s, t) := rfl

theorem readBody_quote (hr : ∀ c ∈ r.head?, c ≠ '\'') : readBody ('\'' :: r) = some ([], r) := by
  cases r with
  | nil => rfl
  | cons c r =>
    have hc : c ≠ '\'' := hr c rfl
    exact (if_neg (by decide)).trans ((if_neg (by decide)).trans (if_neg hc))

theorem length_readBody {cs : List Char} (h : readBody cs = some (s, r)) :
    r.length < cs.length := by
  fun_induction readBody cs generalizing s with
  | case1 => cases h
  | case2 => cases h; exact Nat.zero_lt_one
  | case3 => cases h
  | case4 c t ih =>
    obtain ⟨⟨u, v⟩, hu, he⟩ := Option.map_eq_some_iff.1 h
    cases he
    exact (ih hu).trans (Nat.lt_add_of_pos_right Nat.two_pos)
  | case5 c c' t hc hq ih =>
    obtain ⟨⟨u, v⟩, hu, he⟩ := Option.map_eq_some_iff.1 h
    cases he
    exact (ih hu).trans (Nat.lt_succ_self _)
  | case6 c t hc hq ih =>
    obtain ⟨⟨u, v⟩, hu, he⟩ := Option.map_eq_some_iff.1 h
    cases he
    exact (ih hu).trans (Nat.lt_add_of_pos_right Nat.two_pos)
  | case7 => cases h; exact Nat.lt_succ_self _

/-- A literal leaves the rest that follows it. -/
def Leaves (cs r : List Char) : Prop := ∃ s, readBody cs = some (s, r)

theorem leaves_of_map {cs ds : List Char} {f : List Char → List Char}
    (h : readBody cs = (readBody ds).map fun (s, t) => (f s, t)) : Leaves cs r ↔ Leaves ds r := by
  constructor
  · rintro ⟨s, hs⟩
    rw [h] at hs
    obtain ⟨⟨u, v⟩, hu, he⟩ := Option.map_eq_some_iff.1 hs
    cases he
    exact ⟨u, hu⟩
  · rintro ⟨s, hs⟩
    exact ⟨f s, by rw [h, hs]; rfl⟩

theorem Leaves.length_lt {cs : List Char} (h : Leaves cs r) : r.length < cs.length := by
  obtain ⟨s, hs⟩ := h
  exact length_readBody hs

/-- Once a backslash has taken the first quote of a pair, the second ends the literal early, or pairs
up with the closing one. -/
theorem not_leaves_of_odd_quote (s : List Char) :
    ¬Leaves ('\'' :: (Quoted.double '\'' s ++ '\'' :: r)) r := by
  induction s with
  | nil =>
    rw [Quoted.double_nil, List.nil_append, leaves_of_map (readBody_quotes r)]
    exact fun h => Nat.lt_irrefl _ h.length_lt
  | cons c s ih =>
    by_cases hc : c = '\''
    · subst hc
      rw [Quoted.double_cons_self, List.cons_append, leaves_of_map (readBody_quotes _)]
      exact ih
    · rw [Quoted.double_cons_of_ne hc, List.cons_append]
      rintro ⟨u, hu⟩
      rw [readBody_quote fun d hd => by cases hd; exact hc] at hu
      have hlength := congrArg (fun p => p.2.length) (Option.some.inj hu)
      simp only [List.length_cons, List.length_append] at hlength
      omega

/-! Backslashes in pairs, one step at a time. -/

theorem backslashesAtEnd_concat_self (p : List Char) :
    backslashesAtEnd (p ++ ['\\']) = backslashesAtEnd p + 1 := by
  rw [backslashesAtEnd, List.rtakeWhile_concat_pos _ _ _ (by decide), List.length_append]
  rfl

theorem backslashesAtEnd_concat_of_ne (hc : c ≠ '\\') (p : List Char) :
    backslashesAtEnd (p ++ [c]) = 0 := by
  rw [backslashesAtEnd, List.rtakeWhile_concat_neg _ _ _ (by simpa using hc), List.length_nil]

theorem even_backslashesAtEnd_append (hu : Even (backslashesAtEnd u)) (p : List Char) :
    Even (backslashesAtEnd (u ++ p)) ↔ Even (backslashesAtEnd p) := by
  induction p using List.reverseRecOn with
  | nil => simpa [backslashesAtEnd] using hu
  | append_singleton p c ih =>
    rw [← List.append_assoc]
    by_cases hc : c = '\\'
    · rw [hc, backslashesAtEnd_concat_self, backslashesAtEnd_concat_self, Nat.even_add_one,
        Nat.even_add_one, ih]
    · rw [backslashesAtEnd_concat_of_ne hc, backslashesAtEnd_concat_of_ne hc]

theorem paired_nil : Paired [] := by
  intro p t h _
  rw [(List.append_eq_nil_iff.1 h.symm).1]
  exact .zero

/-- A front that ends with backslashes in pairs, and has no quote behind an odd number of them, can be
taken away. -/
theorem paired_append (hu : Even (backslashesAtEnd u))
    (hquote : ∀ p t, u = p ++ '\'' :: t → Even (backslashesAtEnd p)) :
    Paired (u ++ s) ↔ Paired s := by
  constructor
  · rintro h p t rfl ht
    exact (even_backslashesAtEnd_append hu p).1 (h (u ++ p) t (List.append_assoc u p t).symm ht)
  · intro h p t hs ht
    obtain ⟨p', rfl, rfl⟩ | ⟨t', rfl, rfl⟩ := List.append_eq_append_iff.1 hs
    · exact (even_backslashesAtEnd_append hu p').2 (h p' t rfl ht)
    · cases t' with
      | nil => rwa [List.append_nil] at hu
      | cons c t' => exact hquote p t' (by rw [ht c rfl])

theorem paired_cons (hc : c ≠ '\\') : Paired (c :: s) ↔ Paired s := by
  refine paired_append (u := [c]) ?_ fun p t h => ?_
  · rw [← List.nil_append [c], backslashesAtEnd_concat_of_ne hc]
    exact .zero
  · obtain ⟨rfl, -⟩ | ⟨p', rfl, h'⟩ := List.cons_eq_append_iff.1 h
    · exact .zero
    · cases p' <;> cases h'

theorem paired_backslash_cons (hc : c ≠ '\'') : Paired ('\\' :: c :: s) ↔ Paired s := by
  refine paired_append (u := ['\\', c]) ?_ fun p t h => ?_
  · by_cases hb : c = '\\'
    · rw [hb]
      decide
    · rw [← List.singleton_append, backslashesAtEnd_concat_of_ne hb]
      exact .zero
  · have hmem : '\'' ∈ ['\\', c] := h ▸ List.mem_append_right p List.mem_cons_self
    simp [hc.symm] at hmem

theorem not_paired_backslash : ¬Paired ['\\'] := fun h => absurd (h ['\\'] [] rfl nofun) (by decide)

theorem not_paired_backslash_quote : ¬Paired ('\\' :: '\'' :: s) := fun h =>
  absurd (h ['\\'] ('\'' :: s) rfl fun _ hc => (Option.some.inj hc).symm) (by decide)

/-- What is written between the quotes of a literal, and the rest behind it. -/
def written (s r : List Char) : List Char := Quoted.double '\'' s ++ '\'' :: r

theorem leaves_nil (hr : ∀ c ∈ r.head?, c ≠ '\'') : Leaves (written [] r) r := ⟨[], readBody_quote hr⟩

theorem leaves_cons (hc : c ≠ '\\') : Leaves (written (c :: s) r) r ↔ Leaves (written s r) r := by
  by_cases hq : c = '\''
  · subst hq
    rw [written, Quoted.double_cons_self]
    exact leaves_of_map (readBody_quotes _)
  · rw [written, Quoted.double_cons_of_ne hq]
    exact leaves_of_map (readBody_plain hc hq _)

theorem leaves_backslash_cons (hc : c ≠ '\'') :
    Leaves (written ('\\' :: c :: s) r) r ↔ Leaves (written s r) r := by
  rw [written, Quoted.double_cons_of_ne (by decide), Quoted.double_cons_of_ne hc]
  exact leaves_of_map (readBody_backslash c _)

/-- A backslash at the end takes the closing quote. -/
theorem not_leaves_backslash : ¬Leaves (written ['\\'] r) r := by
  rw [written, Quoted.double_cons_of_ne (by decide)]
  intro h
  exact Nat.lt_irrefl _ ((leaves_of_map (readBody_backslash '\'' r)).1 h).length_lt

theorem not_leaves_backslash_quote : ¬Leaves (written ('\\' :: '\'' :: s) r) r := by
  rw [written, Quoted.double_cons_of_ne (by decide), Quoted.double_cons_self]
  intro h
  exact not_leaves_of_odd_quote s ((leaves_of_map (readBody_backslash '\'' _)).1 h)

theorem leaves_iff_paired (hr : ∀ c ∈ r.head?, c ≠ '\'') (s : List Char) :
    Leaves (written s r) r ↔ Paired s := by
  induction s using List.twoStepInduction with
  | nil => exact iff_of_true (leaves_nil hr) paired_nil
  | singleton c =>
    by_cases hc : c = '\\'
    · rw [hc]
      exact iff_of_false not_leaves_backslash not_paired_backslash
    · rw [leaves_cons hc, paired_cons hc]
      exact iff_of_true (leaves_nil hr) paired_nil
  | cons_cons c d s ih ihd =>
    by_cases hc : c = '\\'
    · by_cases hd : d = '\''
      · rw [hc, hd]
        exact iff_of_false not_leaves_backslash_quote not_paired_backslash_quote
      · rw [hc, leaves_backslash_cons hd, paired_backslash_cons hd, ih]
    · rw [leaves_cons hc, paired_cons hc, ihd]

/-- A string whose backslashes are doubled as well is read back. -/
theorem readBody_written_double (hr : ∀ c ∈ r.head?, c ≠ '\'') (s : List Char) :
    readBody (written (Quoted.double '\\' s) r) = some (s, r) := by
  induction s with
  | nil => exact readBody_quote hr
  | cons c s ih =>
    by_cases hb : c = '\\'
    · rw [hb, Quoted.double_cons_self, written, Quoted.double_cons_of_ne (by decide),
        Quoted.double_cons_of_ne (by decide), List.cons_append, List.cons_append,
        readBody_backslash, ← written, ih]
      rfl
    · by_cases hq : c = '\''
      · rw [hq, Quoted.double_cons_of_ne (by decide), written, Quoted.double_cons_self,
          List.cons_append, List.cons_append, readBody_quotes, ← written, ih]
        rfl
      · rw [Quoted.double_cons_of_ne hb, written, Quoted.double_cons_of_ne hq, List.cons_append,
          readBody_plain hb hq, ← written, ih]
        rfl

theorem read_literalText (s : String) (r : List Char) :
    read ((literalText s).toList ++ r) =
      (readBody (written s.toList r)).map fun (s, t) => (String.ofList s, t) := by
  rw [toList_literalText, List.cons_append, List.append_assoc, List.singleton_append, read,
    if_pos rfl, written]

theorem exists_read_iff_leaves (s : String) (r : List Char) :
    (∃ t, read ((literalText s).toList ++ r) = some (t, r)) ↔ Leaves (written s.toList r) r := by
  rw [read_literalText]
  constructor
  · rintro ⟨t, ht⟩
    obtain ⟨⟨u, v⟩, hu, he⟩ := Option.map_eq_some_iff.1 ht
    cases he
    exact ⟨u, hu⟩
  · rintro ⟨u, hu⟩
    exact ⟨String.ofList u, by rw [hu]; rfl⟩

/-- In front of a rest that starts with no quote, a string literal is read to its end and no further
exactly if an even number of backslashes stands in front of each quote of the string and at its end.
So any string can be written that is read back as it is, if its backslashes are doubled first. -/
theorem literal_is_read_to_its_end_iff {r : List Char} (hr : r.head? ≠ some '\'') (s : String) :
    ((∃ t, read ((literalText s).toList ++ r) = some (t, r)) ↔ Paired s.toList) ∧
    read ((literalText (String.ofList (Quoted.double '\\' s.toList))).toList ++ r) =
      some (s, r) := by
  have hne : ∀ c ∈ r.head?, c ≠ '\'' := fun c hc he => hr (he ▸ hc)
  refine ⟨(exists_read_iff_leaves s r).trans (leaves_iff_paired hne s.toList), ?_⟩
  simp only [read_literalText, String.toList_ofList, readBody_written_double hne, Option.map_some,
    String.ofList_toList]

/-- A backslash at the end of a path. -/
theorem path_is_not_read_to_its_end :
    let rest := " AND name = 'x'".toList
    rest.head? ≠ some '\'' ∧ ¬Paired "C:\\".toList ∧
      (¬∃ t, read ((literalText "C:\\").toList ++ rest) = some (t, rest)) ∧
      read ((literalText "C:\\\\").toList ++ rest) = some ("C:\\", rest) := by
  intro rest
  have hrest : rest.head? ≠ some '\'' := by decide
  have hpaired : ¬Paired "C:\\".toList := fun h =>
    absurd (h "C:\\".toList [] (List.append_nil _).symm nofun) (by decide)
  obtain ⟨hiff, hdoubled⟩ := literal_is_read_to_its_end_iff hrest "C:\\"
  exact ⟨hrest, hpaired, fun h => hpaired (hiff.1 h), hdoubled⟩

/-- A quote behind a backslash ends its literal, and what the string goes on with is outside. -/
theorem literal_ends_at_escaped_quote :
    (literalText "\\' OR 1=1 -- ").toList = "'\\'' OR 1=1 -- '".toList ∧
    read "'\\'' OR 1=1 -- '".toList = some ("'", " OR 1=1 -- '".toList) ∧
    ¬∀ (s : String) (r : List Char), r.head? ≠ some '\'' →
      ∃ t, read ((literalText s).toList ++ r) = some (t, r) := by
  have htext : (literalText "\\' OR 1=1 -- ").toList = "'\\'' OR 1=1 -- '".toList := rfl
  have hread : read "'\\'' OR 1=1 -- '".toList = some ("'", " OR 1=1 -- '".toList) := rfl
  refine ⟨htext, hread, fun h => ?_⟩
  obtain ⟨t, ht⟩ := h "\\' OR 1=1 -- " [] nofun
  rw [List.append_nil, htext, hread] at ht
  cases ht

end BoundSql.MySql
