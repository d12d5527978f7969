import Mathlib.Data.List.Chain
import BoundSql.Proofs.Text.Quoted
import BoundSql.Proofs.Text.Reader

/-! Spaces in a text. A text is clean if single spaces stand between its words and nowhere else.
Clean texts stay clean when they are put together, with any single-spaced text between them. -/

namespace BoundSql

/-- No two spaces stand side by side. -/
def SingleSpaced (cs : List Char) : Prop := cs.IsChain fun a b => a ≠ ' ' ∨ b ≠ ' '

instance : DecidablePred SingleSpaced := fun _ => inferInstanceAs (Decidable (List.IsChain _ _))

/-- A text that starts a clean text. -/
structure Opening (cs : List Char) : Prop where
  nonempty : cs ≠ []
  head : cs.head? ≠ some ' '
  single : SingleSpaced cs

/-- A text with no space at its ends and no two spaces side by side. -/
structure Clean (cs : List Char) : Prop extends Opening cs where
  last : cs.getLast? ≠ some ' '

instance : DecidablePred Opening := fun cs =>
  decidable_of_iff (cs ≠ [] ∧ cs.head? ≠ some ' ' ∧ SingleSpaced cs)
    ⟨fun ⟨h, hh, hs⟩ => ⟨h, hh, hs⟩, fun ⟨h, hh, hs⟩ => ⟨h, hh, hs⟩⟩

instance : DecidablePred Clean := fun cs =>
  decidable_of_iff (Opening cs ∧ cs.getLast? ≠ some ' ')
    ⟨fun ⟨h, hl⟩ => ⟨h, hl⟩, fun ⟨h, hl⟩ => ⟨h, hl⟩⟩

/-- A text that may follow any clean text. -/
def Trailing (cs : List Char) : Prop := ∀ a, Clean a → Clean (a ++ cs)

variable {a b k cs : List Char}

theorem ne_of_mem {c : Char} {o : Option Char} (hc : c ∈ o) (ho : o ≠ some ' ') : c ≠ ' ' := by
  rintro rfl
  exact ho hc

theorem Opening.append (ha : Opening a) (hb : Clean b) : Clean (a ++ b) := by
  obtain ⟨x, a, rfl⟩ := List.exists_cons_of_ne_nil ha.nonempty
  obtain ⟨y, b, rfl⟩ := List.exists_cons_of_ne_nil hb.nonempty
  refine ⟨⟨by simp, ha.head, ?_⟩, ?_⟩
  · exact ha.single.append hb.single fun _ _ c hc => .inr (ne_of_mem hc hb.head)
  · have hl := hb.last
    rwa [List.getLast?_append_of_ne_nil _ (by simp)]

theorem Clean.opening_append (ha : Clean a) (hk : SingleSpaced k) : Opening (a ++ k) := by
  obtain ⟨x, a, rfl⟩ := List.exists_cons_of_ne_nil ha.nonempty
  exact ⟨by simp, ha.head, ha.single.append hk fun c hc _ _ => .inl (ne_of_mem hc ha.last)⟩

theorem trailing_nil : Trailing [] := fun a ha => by rwa [List.append_nil]

theorem Trailing.append (ha : Trailing a) (hb : Trailing b) : Trailing (a ++ b) := by
  intro c hc
  rw [← List.append_assoc]
  exact hb _ (ha c hc)

theorem SingleSpaced.trailing (hk : SingleSpaced k) (hb : Clean b) : Trailing (k ++ b) := by
  intro c hc
  rw [← List.append_assoc]
  exact (hc.opening_append hk).append hb

theorem Clean.trailing (h : Clean cs) : Trailing cs := SingleSpaced.trailing .nil h

namespace Quoted

variable {quote : Char}

theorem head?_double (quote : Char) (cs : List Char) : (double quote cs).head? = cs.head? := by
  cases cs with
  | nil => rfl
  | cons c cs =>
    by_cases hc : c = quote
    · subst hc
      rw [double_cons_self]
      rfl
    · rw [double_cons_of_ne hc]
      rfl

theorem singleSpaced_double (hq : quote ≠ ' ') (h : SingleSpaced cs) :
    SingleSpaced (double quote cs) := by
  induction cs with
  | nil => exact .nil
  | cons c cs ih =>
    obtain ⟨hc, hcs⟩ := List.isChain_cons.1 h
    by_cases he : c = quote
    · subst he
      rw [double_cons_self]
      exact .cons (.cons (ih hcs) fun _ _ => .inl hq) fun _ _ => .inl hq
    · rw [double_cons_of_ne he]
      refine .cons (ih hcs) ?_
      rwa [head?_double]

/-- A token is clean, also where its content has spaces at the ends. -/
theorem clean_token (hq : quote ≠ ' ') {s : String} (h : SingleSpaced s.toList) :
    Clean (token quote s).toList := by
  have ends : Clean [quote] :=
    ⟨⟨by simp, by simpa using hq, .singleton quote⟩, by simpa using hq⟩
  rw [toList_token, ← List.singleton_append]
  exact (singleSpaced_double hq h).trailing ends _ ends

end Quoted

theorem clean_of_spaceless (hne : cs ≠ []) (h : ∀ c ∈ cs, c ≠ ' ') : Clean cs := by
  refine ⟨⟨hne, fun hc => h _ (List.mem_of_mem_head? hc) rfl, ?_⟩,
    fun hc => h _ (List.mem_of_mem_getLast? hc) rfl⟩
  exact (List.pairwise_of_forall_mem_list fun a ha _ _ => .inl (h a ha)).isChain

theorem clean_toString (n : Nat) : Clean (toString n).toList := by
  rw [Nat.toString_eq_ofList_toDigits, String.toList_ofList]
  refine clean_of_spaceless Nat.toDigits_ne_nil fun c hc => ?_
  rintro rfl
  exact absurd (Reader.isDigit_of_mem_toDigits _ hc) (by decide)

end BoundSql
