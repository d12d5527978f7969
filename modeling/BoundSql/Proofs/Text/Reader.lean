import Mathlib.Data.List.Basic

/-! Readers of text that was written in a known way. A reader inverts a writing if it gives back what
was written and leaves what follows, as long as what follows starts a new part. -/

namespace BoundSql

/-- Reads something from the front of a text and returns the rest. -/
abbrev Reader (α : Type) := List Char → Option (α × List Char)

/-- Texts with commas between them. -/
def commas (ws : List (List Char)) : List Char := ", ".toList.intercalate ws

/-- A keyword and texts with commas between them, or nothing if there are none. -/
def clauseText (keyword : String) : List (List Char) → List Char
  | [] => []
  | w :: ws => keyword.toList ++ commas (w :: ws)

def optionText (keyword : String) : Option (List Char) → List Char
  | none => []
  | some w => keyword.toList ++ w

namespace Reader

variable {α ι : Type}

/-- Removes a word from the front of a text. -/
def skip (s : String) (cs : List Char) : Option (List Char) :=
  if s.toList <+: cs then some (cs.drop s.toList.length) else none

/-- Whether a word stands at the front of a text, and what follows it. -/
def flag (s : String) (cs : List Char) : Bool × List Char :=
  match skip s cs with
  | none => (false, cs)
  | some r => (true, r)

def after (s : String) (p : Reader α) : Reader α := fun cs => (skip s cs).bind p

/-- Reads as often as it can. -/
def many (p : Reader α) (cs : List Char) : List α × List Char :=
  match p cs with
  | none => ([], cs)
  | some (a, r) =>
    if r.length < cs.length then
      let (as, t) := many p r
      (a :: as, t)
    else ([], cs)
termination_by cs.length

/-- Reads an item and then all that follow it behind commas. -/
def commaSeparated (p : Reader α) : Reader (List α) := fun cs => do
  let (a, r) ← p cs
  let (as, t) := many (after ", " p) r
  return (a :: as, t)

/-- Reads a clause, whose items are missing if its keyword is. -/
def clause (keyword : String) (p : Reader α) : Reader (List α) := fun cs =>
  match skip keyword cs with
  | none => some ([], cs)
  | some r => commaSeparated p r

def option (keyword : String) (p : Reader α) : Reader (Option α) := fun cs =>
  match skip keyword cs with
  | none => some (none, cs)
  | some r => (p r).map fun (a, t) => (some a, t)

/-- Reads decimal digits. -/
def number : Reader UInt64 := fun cs =>
  let digits := cs.takeWhile Char.isDigit
  if digits = [] then none
  else some (.ofNat (Nat.ofDigitChars 10 digits 0), cs.dropWhile Char.isDigit)

/-- What follows an item. -/
def Ends (r : List Char) : Prop := ∀ c ∈ r.head?, c = ',' ∨ c = ' '

/-- A reader gives back some part of what was written. -/
def Inverts (p : Reader α) (write : ι → List Char) (read : ι → α) : Prop :=
  ∀ i r, Ends r → p (write i ++ r) = some (read i, r)

/-- A text that is empty or starts with one of some keywords. -/
def Begins (keywords : List String) (r : List Char) : Prop :=
  r = [] ∨ ∃ k ∈ keywords, k.toList <+: r

/-- A word that is told apart from each of some keywords, all of which start with a space. -/
def Apart (s : String) (keywords : List String) : Prop :=
  s ≠ "" ∧ ∀ k ∈ keywords, ¬s.toList <+: k.toList ∧ ¬k.toList <+: s.toList ∧ " ".toList <+: k.toList

instance (s : String) (keywords : List String) : Decidable (Apart s keywords) :=
  inferInstanceAs (Decidable (_ ∧ _))

theorem skip_append (s : String) (r : List Char) : skip s (s.toList ++ r) = some r := by
  rw [skip, if_pos (List.prefix_append _ _), List.drop_left]

theorem flag_append {s : String} (b : Bool) {r : List Char} (h : skip s r = none) :
    flag s ((if b then s.toList else []) ++ r) = (b, r) := by
  cases b
  · show flag s r = (false, r)
    rw [flag, h]
  · show flag s (s.toList ++ r) = (true, r)
    rw [flag, skip_append]

theorem skip_eq_none {s : String} {keywords : List String} {r : List Char}
    (h : Begins keywords r) (hs : Apart s keywords) : skip s r = none := by
  refine if_neg fun hp => ?_
  obtain rfl | ⟨k, hk, hr⟩ := h
  · exact hs.1 (String.toList_eq_nil_iff.1 (List.prefix_nil.1 hp))
  · have hsk := hs.2 k hk
    exact (List.prefix_or_prefix_of_prefix hp hr).elim hsk.1 hsk.2.1

theorem ends_of_begins {s : String} {keywords : List String} {r : List Char}
    (h : Begins keywords r) (hs : Apart s keywords) : Ends r := by
  intro c hc
  obtain rfl | ⟨k, hk, hr⟩ := h
  · cases hc
  · obtain ⟨t, rfl⟩ := (hs.2 k hk).2.2.trans hr
    exact .inr (Option.some.inj hc).symm

theorem ends_comma (r : List Char) : Ends (", ".toList ++ r) := by
  intro c hc
  exact .inl (Option.some.inj hc).symm

theorem ends_space (r : List Char) : Ends (" ".toList ++ r) := fun _ hc =>
  .inr (Option.some.inj hc).symm

theorem begins_clauseText {s : String} {keywords : List String} {r : List Char}
    (h : Begins keywords r) (ws : List (List Char)) :
    Begins (s :: keywords) (clauseText s ws ++ r) := by
  cases ws with
  | nil => exact h.imp_right fun ⟨k, hk, hr⟩ => ⟨k, .tail s hk, hr⟩
  | cons w ws =>
    refine .inr ⟨s, .head _, ?_⟩
    rw [clauseText, List.append_assoc]
    exact List.prefix_append _ _

theorem begins_optionText {s : String} {keywords : List String} {r : List Char}
    (h : Begins keywords r) (o : Option (List Char)) :
    Begins (s :: keywords) (optionText s o ++ r) := by
  cases o with
  | none => exact h.imp_right fun ⟨k, hk, hr⟩ => ⟨k, .tail s hk, hr⟩
  | some w =>
    refine .inr ⟨s, .head _, ?_⟩
    rw [optionText, List.append_assoc]
    exact List.prefix_append _ _

section Inverts

variable {p : Reader α} {write : ι → List Char} {read : ι → α} {keywords : List String}
  {r : List Char}

theorem Inverts.after (h : p.Inverts write read) (s : String) :
    (after s p).Inverts (fun i => s.toList ++ write i) read := by
  intro i r hr
  rw [Reader.after, List.append_assoc, skip_append]
  exact h i r hr

/-- What is written item after item ends each of the items. -/
theorem ends_flatMap (hends : ∀ i r, Ends (write i ++ r)) (hr : Ends r) (is : List ι) :
    Ends (is.flatMap write ++ r) := by
  cases is with
  | nil => exact hr
  | cons i is =>
    rw [List.flatMap_cons, List.append_assoc]
    exact hends i _

/-- Reading as often as possible gives back all that was written, if what is written starts a new
part itself and what follows cannot be read. -/
theorem many_flatMap (h : p.Inverts write read) (hne : ∀ i, write i ≠ [])
    (hends : ∀ i r, Ends (write i ++ r)) (hr : Ends r) (hp : p r = none) (is : List ι) :
    many p (is.flatMap write ++ r) = (is.map read, r) := by
  induction is with
  | nil => rw [List.flatMap_nil, List.nil_append, many, hp]; rfl
  | cons i is ih =>
    have hlength : (is.flatMap write ++ r).length <
        (write i ++ (is.flatMap write ++ r)).length := by
      have := List.length_pos_iff.2 (hne i)
      simp only [List.length_append]
      omega
    rw [List.flatMap_cons, List.append_assoc, many, h i _ (ends_flatMap hends hr is)]
    simp only [if_pos hlength, ih, List.map_cons]

theorem commas_cons (w : List Char) (ws : List (List Char)) :
    commas (w :: ws) = w ++ ws.flatMap (", ".toList ++ ·) := by
  induction ws generalizing w with
  | nil => simp [commas]
  | cons v ws ih =>
    have := ih v
    rw [commas] at this ⊢
    rw [List.intercalate_cons_cons, this]
    simp

/-- Items with commas between them are read back. -/
theorem commaSeparated_commas (h : p.Inverts write read) (hr : Begins keywords r)
    (hc : Apart ", " keywords) (i : ι) (is : List ι) :
    commaSeparated p (commas ((i :: is).map write) ++ r) = some ((i :: is).map read, r) := by
  have hr' := ends_of_begins hr hc
  have hends (i : ι) (r : List Char) : Ends (", ".toList ++ write i ++ r) := by
    rw [List.append_assoc]
    exact ends_comma _
  have hstop : after ", " p r = none := by rw [after, skip_eq_none hr hc]; rfl
  have hmany := many_flatMap (h.after ", ") (fun i => by simp) hends hr' hstop is
  have hfirst := h i _ (ends_flatMap hends hr' is)
  rw [List.map_cons, commas_cons, List.flatMap_map, List.append_assoc, commaSeparated]
  simp only [hfirst, Option.bind_eq_bind, Option.bind_some, hmany, Option.pure_def, List.map_cons]

theorem clause_clauseText (h : p.Inverts write read) {s : String} (hr : Begins keywords r)
    (hs : Apart s keywords) (hc : Apart ", " keywords) (is : List ι) :
    clause s p (clauseText s (is.map write) ++ r) = some (is.map read, r) := by
  cases is with
  | nil => simp only [List.map_nil, clauseText, List.nil_append, clause, skip_eq_none hr hs]
  | cons i is =>
    have := commaSeparated_commas h hr hc i is
    rw [List.map_cons] at this
    simp only [List.map_cons, clauseText, List.append_assoc, clause, skip_append, this]

theorem option_optionText {s : String} (h : ∀ i, p (write i ++ r) = some (read i, r))
    (hr : Begins keywords r) (hs : Apart s keywords) (o : Option ι) :
    option s p (optionText s (o.map write) ++ r) = some (o.map read, r) := by
  cases o with
  | none => simp only [Option.map_none, optionText, List.nil_append, option, skip_eq_none hr hs]
  | some i =>
    simp only [Option.map_some, optionText, List.append_assoc, option, skip_append, h i,
      Option.map_some]

end Inverts

theorem takeWhile_append_of_head {p : Char → Bool} {s r : List Char} (hs : ∀ c ∈ s, p c = true)
    (hr : ∀ c ∈ r.head?, p c = false) : (s ++ r).takeWhile p = s := by
  rw [List.takeWhile_append_of_pos hs]
  cases r with
  | nil => simp
  | cons c r => simp [hr c rfl]

theorem dropWhile_append_of_head {p : Char → Bool} {s r : List Char} (hs : ∀ c ∈ s, p c = true)
    (hr : ∀ c ∈ r.head?, p c = false) : (s ++ r).dropWhile p = r := by
  rw [List.dropWhile_append_of_pos hs]
  cases r with
  | nil => rfl
  | cons c r => simp [hr c rfl]

theorem Ends.not_isDigit {r : List Char} (h : Ends r) : ∀ c ∈ r.head?, c.isDigit = false := by
  intro c hc
  rcases h c hc with rfl | rfl <;> rfl

theorem isDigit_of_mem_toDigits {n : Nat} : ∀ c ∈ Nat.toDigits 10 n, c.isDigit = true :=
  fun _ hc => Nat.isDigit_of_mem_toDigits (by decide) (by decide) hc

theorem number_inverts : number.Inverts (fun n => (toString n.toNat).toList) id := by
  intro n r hr
  have ht := takeWhile_append_of_head (isDigit_of_mem_toDigits (n := n.toNat)) hr.not_isDigit
  have hd := dropWhile_append_of_head (isDigit_of_mem_toDigits (n := n.toNat)) hr.not_isDigit
  show number ((toString n.toNat).toList ++ r) = some (n, r)
  rw [Nat.toString_eq_ofList_toDigits, String.toList_ofList]
  simp only [number, ht, hd, Nat.toDigits_ne_nil, if_false, Nat.ofDigitChars_ten_toDigits,
    UInt64.ofNat_toNat]

end Reader

end BoundSql
