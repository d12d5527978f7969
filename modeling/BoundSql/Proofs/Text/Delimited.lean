import BoundSql.Proofs.Text.Reader
import Mathlib.Data.Set.Function

/-! Texts that need no mark behind them. Items are delimited by their texts if a text tells its item and
its own end, whatever follows, as long as that starts in an allowed way. Texts of delimited items can
be put side by side or listed in brackets, and are still told apart. -/

namespace BoundSql

variable {ι κ : Type} {s : Set ι} {write : ι → List Char} {follow stop : List Char → Prop}

/-- A text that starts with the text of an item of a set, and goes on in an allowed way, starts so in
one way only. -/
def Delimited (s : Set ι) (follow : List Char → Prop) (write : ι → List Char) : Prop :=
  ∀ ⦃i⦄, i ∈ s → ∀ ⦃j⦄, j ∈ s → ∀ ⦃r t⦄, follow r → follow t →
    write i ++ r = write j ++ t → i = j ∧ r = t

/-- Nothing is asked of what follows. -/
def Anything (_ : List Char) : Prop := True

/-- A list of texts in square brackets. -/
def bracketed (ws : List (List Char)) : List Char := '[' :: (commas ws ++ [']'])

namespace Delimited

theorem injOn (h : Delimited s follow write) (hf : follow []) : Set.InjOn write s :=
  fun _ hi _ hj he => (h hi hj hf hf (by rw [he])).1

theorem mono {t : Set ι} (h : Delimited s follow write) (hs : t ⊆ s) : Delimited t follow write :=
  fun _ hi _ hj => h (hs hi) (hs hj)

/-- What determines an item is told by the text of the item. -/
theorem comap (h : Delimited s follow write) {f : κ → ι} {t : Set κ} (hf : Set.InjOn f t)
    (hs : ∀ k ∈ t, f k ∈ s) : Delimited t follow fun k => write (f k) := by
  intro i hi j hj r u hr hu he
  obtain ⟨hsame, hrest⟩ := h (hs i hi) (hs j hj) hr hu he
  exact ⟨hf hi hj hsame, hrest⟩

/-- Texts of characters of one kind end where that kind ends. -/
theorem of_all {p : Char → Bool} (hinj : Set.InjOn write s) (hp : ∀ i ∈ s, ∀ c ∈ write i, p c = true) :
    Delimited s (fun r => ∀ c ∈ r.head?, p c = false) write := by
  intro i hi j hj r t hr ht h
  have hsame : write i = write j := by
    rw [← Reader.takeWhile_append_of_head (hp i hi) hr, h,
      Reader.takeWhile_append_of_head (hp j hj) ht]
  rw [hsame] at h
  exact ⟨hinj hi hj hsame, List.append_cancel_left h⟩

theorem behind (h : Delimited s follow write) (word : List Char) :
    Delimited s follow fun i => word ++ write i := by
  intro i hi j hj r t hr ht he
  rw [List.append_assoc, List.append_assoc] at he
  exact h hi hj hr ht (List.append_cancel_left he)

/-- In front of a fixed word that may follow it, a text needs nothing to follow. -/
theorem closed (h : Delimited s follow write) (word : List Char)
    (hword : ∀ r, follow (word ++ r)) : Delimited s Anything fun i => write i ++ word := by
  intro i hi j hj r t _ _ he
  rw [List.append_assoc, List.append_assoc] at he
  obtain ⟨rfl, hrest⟩ := h hi hj (hword r) (hword t) he
  exact ⟨rfl, List.append_cancel_left hrest⟩

/-- One text and then another. -/
theorem pair {t : Set κ} {write' : κ → List Char} {follow' : List Char → Prop}
    (h : Delimited s follow write) (h' : Delimited t follow' write')
    (hnext : ∀ k ∈ t, ∀ r, follow (write' k ++ r)) :
    Delimited (s ×ˢ t) follow' fun p => write p.1 ++ write' p.2 := by
  rintro ⟨i, k⟩ ⟨hi, hk⟩ ⟨j, l⟩ ⟨hj, hl⟩ r u hr hu he
  rw [List.append_assoc, List.append_assoc] at he
  obtain ⟨rfl, hrest⟩ := h hi hj (hnext k hk r) (hnext l hl u) he
  obtain ⟨rfl, hend⟩ := h' hk hl hr hu hrest
  exact ⟨rfl, hend⟩

/-- Texts side by side, up to something that starts no further text. -/
theorem flatMap (h : Delimited s follow write) (hnext : ∀ i ∈ s, ∀ r, follow (write i ++ r))
    (hstop : ∀ r, stop r → follow r) (hne : ∀ i ∈ s, ∀ r, ¬stop (write i ++ r)) :
    Delimited {is | ∀ i ∈ is, i ∈ s} stop (List.flatMap write) := by
  have hfollow : ∀ is, (∀ i ∈ is, i ∈ s) → ∀ r, stop r → follow (List.flatMap write is ++ r) := by
    intro is his r hr
    cases is with
    | nil => exact hstop r hr
    | cons i is =>
      rw [List.flatMap_cons, List.append_assoc]
      exact hnext i (his i List.mem_cons_self) _
  intro is
  induction is with
  | nil =>
    intro _ js hjs r t hr ht he
    cases js with
    | nil => exact ⟨rfl, he⟩
    | cons j js =>
      have hstart : r = write j ++ (List.flatMap write js ++ t) := by
        rw [← List.append_assoc]
        exact he
      exact absurd (hstart ▸ hr) (hne j (hjs j List.mem_cons_self) _)
  | cons i is ih =>
    intro his js hjs r t hr ht he
    obtain ⟨hi, his⟩ := List.forall_mem_cons.1 his
    rw [List.flatMap_cons, List.append_assoc] at he
    cases js with
    | nil =>
      have hstart : t = write i ++ (List.flatMap write is ++ r) := he.symm
      exact absurd (hstart ▸ ht) (hne i hi _)
    | cons j js =>
      obtain ⟨hj, hrest⟩ := List.forall_mem_cons.1 hjs
      rw [List.flatMap_cons, List.append_assoc] at he
      obtain ⟨rfl, hitems⟩ := h hi hj (hfollow is his r hr) (hfollow js hrest t ht) he
      obtain ⟨rfl, hend⟩ := ih his hrest hr ht hitems
      exact ⟨rfl, hend⟩

/-- Lists in brackets, of items whose texts do not start with a closing bracket. -/
theorem bracketed (h : Delimited s follow write) (hcomma : ∀ r, follow (',' :: r))
    (hclose : ∀ r, follow (']' :: r)) (hne : ∀ i ∈ s, ∀ r, (write i ++ r).head? ≠ some ']') :
    Delimited {is | ∀ i ∈ is, i ∈ s} Anything fun is : List ι => bracketed (is.map write) := by
  have hitems : Delimited {is | ∀ i ∈ is, i ∈ s} (fun r => r.head? = some ']')
      (List.flatMap fun i => ", ".toList ++ write i) := by
    refine (h.behind ", ".toList).flatMap (fun i _ r => hcomma _) (fun r hr => ?_)
      fun i _ r hr => absurd (Option.some.inj hr) (by decide)
    obtain ⟨t, rfl⟩ := List.head?_eq_some_iff.1 hr
    exact hclose t
  have hfollow : ∀ is r, follow (List.flatMap (fun i => ", ".toList ++ write i) is ++ ']' :: r) := by
    intro is r
    cases is with
    | nil => exact hclose r
    | cons i is => exact hcomma _
  have htext : ∀ i is r, BoundSql.bracketed ((i :: is).map write) ++ r =
      '[' :: (write i ++ (List.flatMap (fun i => ", ".toList ++ write i) is ++ ']' :: r)) := by
    intro i is r
    simp only [BoundSql.bracketed, List.map_cons, Reader.commas_cons, List.flatMap_map, List.cons_append,
      List.append_assoc, List.nil_append]
  intro is his js hjs r t _ _ he
  cases is with
  | nil =>
    cases js with
    | nil => exact ⟨rfl, List.append_cancel_left he⟩
    | cons j js =>
      rw [htext] at he
      have hstart := congrArg List.head? (List.cons.inj he).2
      exact absurd hstart.symm (hne j (hjs j List.mem_cons_self) _)
  | cons i is =>
    obtain ⟨hi, his⟩ := List.forall_mem_cons.1 his
    rw [htext] at he
    cases js with
    | nil =>
      have hstart := congrArg List.head? (List.cons.inj he).2
      exact absurd hstart (hne i hi _)
    | cons j js =>
      obtain ⟨hj, hrest⟩ := List.forall_mem_cons.1 hjs
      rw [htext] at he
      obtain ⟨rfl, hafter⟩ := h hi hj (hfollow is r) (hfollow js t) (List.cons.inj he).2
      obtain ⟨rfl, hend⟩ := hitems his hrest rfl rfl hafter
      exact ⟨rfl, (List.cons.inj hend).2⟩

end Delimited

end BoundSql
