/-! Cutting a text in two at the first or at the last occurrence of a separator character.
The separator itself belongs to neither part. -/

namespace BoundSql.Split

/-- The parts around the first separator, if there is one. -/
def first (sep : Char) : List Char → Option (List Char × List Char)
  | [] => none
  | c :: r => if c = sep then some ([], r) else (first sep r).map fun (a, b) => (c :: a, b)

/-- The parts around the last separator, if there is one. -/
def last (sep : Char) : List Char → Option (List Char × List Char)
  | [] => none
  | c :: r =>
    match last sep r with
    | some (a, b) => some (c :: a, b)
    | none => if c = sep then some ([], r) else none

theorem last_eq_none_iff {sep : Char} {s : List Char} : last sep s = none ↔ sep ∉ s := by
  induction s with
  | nil => simp [last]
  | cons c s ih =>
    cases hl : last sep s with
    | none =>
      have hs := ih.1 hl
      by_cases h : c = sep
      · simp [last, hl, h]
      · simp [last, hl, h, hs]; exact fun e => h e.symm
    | some p =>
      have hs : sep ∈ s := by
        by_cases hm : sep ∈ s
        · exact hm
        · rw [ih.2 hm] at hl; cases hl
      simp [last, hl, hs]

/-- The first cut leaves no separator on its left. -/
theorem first_eq_some_iff {sep : Char} {s a b : List Char} :
    first sep s = some (a, b) ↔ s = a ++ sep :: b ∧ sep ∉ a := by
  induction s generalizing a with
  | nil => simp [first]
  | cons c s ih =>
    by_cases h : c = sep
    · subst h
      cases a with
      | nil => simp [first]
      | cons x a =>
        simp only [first, if_true, Option.some.injEq, Prod.mk.injEq, List.cons_append, List.cons.injEq,
          List.mem_cons, not_or]
        constructor
        · rintro ⟨h, _⟩; cases h
        · rintro ⟨⟨h, _⟩, hne, _⟩; exact absurd h hne
    · cases a with
      | nil => simp [first, h]
      | cons x a =>
        simp only [first, h, if_false, Option.map_eq_some_iff, Prod.mk.injEq, List.cons.injEq,
          List.cons_append, List.mem_cons, not_or]
        constructor
        · rintro ⟨⟨u, v⟩, hu, ⟨rfl, rfl⟩, rfl⟩
          obtain ⟨rfl, hn⟩ := ih.1 hu
          exact ⟨⟨rfl, rfl⟩, fun e => h e.symm, hn⟩
        · rintro ⟨⟨rfl, rfl⟩, _, hn⟩
          exact ⟨(a, b), ih.2 ⟨rfl, hn⟩, ⟨rfl, rfl⟩, rfl⟩

/-- The last cut leaves no separator on its right. -/
theorem last_eq_some_iff {sep : Char} {s a b : List Char} :
    last sep s = some (a, b) ↔ s = a ++ sep :: b ∧ sep ∉ b := by
  induction s generalizing a b with
  | nil => simp [last]
  | cons c s ih =>
    cases hl : last sep s with
    | some p =>
      obtain ⟨u, v⟩ := p
      obtain ⟨hs, hv⟩ := ih.1 hl
      simp only [last, hl, Option.some.injEq, Prod.mk.injEq]
      constructor
      · rintro ⟨rfl, rfl⟩; exact ⟨by simp [hs], hv⟩
      · rintro ⟨he, hb⟩
        cases a with
        | nil =>
          simp only [List.nil_append, List.cons.injEq] at he
          exact absurd (by rw [← he.2, hs]; simp) hb
        | cons x a =>
          simp only [List.cons_append, List.cons.injEq] at he
          have := ih.2 ⟨he.2, hb⟩
          rw [hl] at this
          simp only [Option.some.injEq, Prod.mk.injEq] at this
          exact ⟨by rw [he.1, this.1], this.2⟩
    | none =>
      have hs := last_eq_none_iff.1 hl
      by_cases h : c = sep
      · subst h
        simp only [last, hl, if_true, Option.some.injEq, Prod.mk.injEq]
        constructor
        · rintro ⟨rfl, rfl⟩; exact ⟨rfl, hs⟩
        · rintro ⟨he, hb⟩
          cases a with
          | nil => simp only [List.nil_append, List.cons.injEq] at he; exact ⟨rfl, he.2⟩
          | cons x a =>
            simp only [List.cons_append, List.cons.injEq] at he
            exact absurd (by rw [he.2]; simp) hs
      · simp only [last, hl, h, if_false]
        constructor
        · intro e; cases e
        · rintro ⟨he, _⟩
          cases a with
          | nil => simp only [List.nil_append, List.cons.injEq] at he; exact absurd he.1 h
          | cons x a =>
            simp only [List.cons_append, List.cons.injEq] at he
            exact absurd (by rw [he.2]; simp) hs

/-- A pair of character lists as texts. -/
def texts (p : List Char × List Char) : String × String := (String.ofList p.1, String.ofList p.2)

/-- The texts around the first separator, if there is one. -/
def first? (sep : Char) (s : String) : Option (String × String) := (first sep s.toList).map texts

/-- The texts around the last separator, if there is one. -/
def last? (sep : Char) (s : String) : Option (String × String) := (last sep s.toList).map texts

theorem map_texts_eq_some_iff {o : Option (List Char × List Char)} {a b : String} :
    o.map texts = some (a, b) ↔ o = some (a.toList, b.toList) := by
  rw [Option.map_eq_some_iff]
  constructor
  · rintro ⟨⟨u, v⟩, rfl, he⟩
    cases he
    rw [String.toList_ofList, String.toList_ofList]
  · rintro rfl
    exact ⟨_, rfl, by rw [texts, String.ofList_toList, String.ofList_toList]⟩

theorem first?_eq_some_iff {sep : Char} {s a b : String} :
    first? sep s = some (a, b) ↔ s.toList = a.toList ++ sep :: b.toList ∧ sep ∉ a.toList :=
  map_texts_eq_some_iff.trans first_eq_some_iff

theorem last?_eq_some_iff {sep : Char} {s a b : String} :
    last? sep s = some (a, b) ↔ s.toList = a.toList ++ sep :: b.toList ∧ sep ∉ b.toList :=
  map_texts_eq_some_iff.trans last_eq_some_iff

end BoundSql.Split
