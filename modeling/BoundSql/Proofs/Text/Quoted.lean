import Mathlib.Tactic.Tauto
import BoundSql.Text.Quoted

/-! Reading quoted tokens. A token ends at the first quote character that is not doubled, so it is
read back as it was written unless the quote character follows it. -/

namespace BoundSql.Quoted

/-- The content of a token whose opening quote has been read, and what follows it. -/
def readBody (quote : Char) : List Char → Option (List Char × List Char)
  | [] => none
  | [c] => if c = quote then some ([], []) else none
  | c :: c' :: r =>
    if c ≠ quote then (readBody quote (c' :: r)).map fun (s, t) => (c :: s, t)
    else if c' = quote then (readBody quote r).map fun (s, t) => (quote :: s, t)
    else some ([], c' :: r)

/-- The content of a token and what follows it. -/
def read (quote : Char) : List Char → Option (String × List Char)
  | [] => none
  | c :: r =>
    if c = quote then (readBody quote r).map fun (s, t) => (String.ofList s, t) else none

theorem readBody_cons_of_ne {quote c : Char} (h : c ≠ quote) (r : List Char) :
    readBody quote (c :: r) = (readBody quote r).map fun (s, t) => (c :: s, t) := by
  cases r <;> simp [readBody, h]

theorem readBody_pair (quote : Char) (r : List Char) :
    readBody quote (quote :: quote :: r) =
      (readBody quote r).map fun (s, t) => (quote :: s, t) := by
  simp [readBody]

theorem readBody_quote {quote : Char} {r : List Char} (h : ∀ c ∈ r.head?, c ≠ quote) :
    readBody quote (quote :: r) = some ([], r) := by
  cases r with
  | nil => simp [readBody]
  | cons c r =>
    have hc : c ≠ quote := h c rfl
    simp [readBody, hc]

/-- What is read is a token with its quotes doubled, and no quote follows it. -/
theorem eq_of_readBody {quote : Char} {cs s r : List Char} (h : readBody quote cs = some (s, r)) :
    cs = double quote s ++ quote :: r ∧ r.head? ≠ some quote := by
  fun_induction readBody quote cs generalizing s with
  | case1 => cases h
  | case2 =>
    cases h
    exact ⟨rfl, nofun⟩
  | case3 => cases h
  | case4 c c' t hc ih =>
    obtain ⟨⟨u, v⟩, hu, he⟩ := Option.map_eq_some_iff.1 h
    cases he
    obtain ⟨hcs, hr⟩ := ih hu
    rw [double_cons_of_ne hc, hcs]
    exact ⟨rfl, hr⟩
  | case5 c t hc ih =>
    obtain rfl := not_not.1 hc
    obtain ⟨⟨u, v⟩, hu, he⟩ := Option.map_eq_some_iff.1 h
    cases he
    obtain ⟨hcs, hr⟩ := ih hu
    rw [double_cons_self, hcs]
    exact ⟨rfl, hr⟩
  | case6 c c' t hc hc' =>
    obtain rfl := not_not.1 hc
    cases h
    exact ⟨rfl, fun he => hc' (Option.some.inj he)⟩

theorem length_readBody {quote : Char} {cs s r : List Char} (h : readBody quote cs = some (s, r)) :
    r.length < cs.length := by
  rw [(eq_of_readBody h).1, List.length_append, List.length_cons]
  omega

/-- The content of a token is read back if the token is not followed by a quote. -/
theorem readBody_double {quote : Char} {r : List Char} (h : ∀ c ∈ r.head?, c ≠ quote)
    (s : List Char) : readBody quote (double quote s ++ quote :: r) = some (s, r) := by
  induction s with
  | nil => exact readBody_quote h
  | cons c s ih =>
    by_cases hc : c = quote
    · subst hc
      rw [double_cons_self, List.cons_append, List.cons_append, readBody_pair, ih]
      rfl
    · rw [double_cons_of_ne hc, List.cons_append, readBody_cons_of_ne hc, ih]
      rfl

theorem read_token {quote : Char} {r : List Char} (h : ∀ c ∈ r.head?, c ≠ quote) (s : String) :
    read quote ((token quote s).toList ++ r) = some (s, r) := by
  have hb := readBody_double h s.toList
  simp only [toList_token, List.cons_append, List.append_assoc, List.nil_append, read, if_pos, hb,
    Option.map_some, String.ofList_toList]

/-- Reading a token undoes quoting, and nothing else can be read. -/
theorem read_eq_some_iff {quote : Char} {cs r : List Char} {s : String} :
    read quote cs = some (s, r) ↔ cs = (token quote s).toList ++ r ∧ r.head? ≠ some quote := by
  constructor
  · intro h
    cases cs with
    | nil => cases h
    | cons c t =>
      by_cases hc : c = quote
      · rw [read, if_pos hc] at h
        obtain ⟨⟨u, v⟩, hu, he⟩ := Option.map_eq_some_iff.1 h
        cases he
        obtain ⟨ht, hr⟩ := eq_of_readBody hu
        rw [hc, ht, toList_token, String.toList_ofList, List.cons_append, List.append_assoc]
        exact ⟨rfl, hr⟩
      · rw [read, if_neg hc] at h
        cases h
  · rintro ⟨rfl, hr⟩
    refine read_token (fun c hc he => hr ?_) s
    rw [← he]
    exact hc

theorem read_token_nil (quote : Char) (s : String) :
    read quote (token quote s).toList = some (s, []) :=
  read_eq_some_iff.2 ⟨(List.append_nil _).symm, nofun⟩

theorem read_token_cons {quote c : Char} (h : c ≠ quote) (s : String) (r : List Char) :
    read quote ((token quote s).toList ++ c :: r) = some (s, c :: r) :=
  read_eq_some_iff.2 ⟨rfl, fun hc => h (Option.some.inj hc)⟩

/-- A token has two quotes at least. -/
theorem read_singleton (quote c : Char) : read quote [c] = none := by
  by_cases h : c = quote
  · rw [read, if_pos h]
    rfl
  · rw [read, if_neg h]

theorem token_injective (quote : Char) : Function.Injective (token quote) := by
  intro s t h
  have hs := read_token_nil quote s
  rw [h, read_token_nil] at hs
  exact (congrArg Prod.fst (Option.some.inj hs)).symm

/-- Doubling quotes brings no new character into a text. -/
theorem mem_double {quote c : Char} {s : List Char} : c ∈ double quote s ↔ c ∈ s := by
  induction s with
  | nil => rfl
  | cons a s ih => by_cases ha : a = quote <;> simp [double, ha, ih]

theorem mem_token {quote c : Char} {s : String} :
    c ∈ (token quote s).toList ↔ c = quote ∨ c ∈ s.toList := by
  simp only [toList_token, List.mem_cons, List.mem_append, mem_double, List.not_mem_nil, or_false]
  tauto

end BoundSql.Quoted
