/-! What a sequence of calls leaves in one field of what it fills in. -/

namespace BoundSql

variable {σ γ α : Type} {apply : γ → σ → σ}

/-- A field to which each call adds its items. -/
theorem foldl_gather (field : σ → List α) {items : γ → List α}
    (h : ∀ s call, field (apply call s) = field s ++ items call) (s : σ) (calls : List γ) :
    field (calls.foldl (fun s call => apply call s) s) = field s ++ calls.flatMap items := by
  induction calls generalizing s with
  | nil => simp
  | cons call calls ih => rw [List.foldl_cons, ih, h, List.flatMap_cons, List.append_assoc]

/-- A field that each call with a choice of its own overwrites. -/
theorem foldl_last (field : σ → α) {item : γ → Option α}
    (h : ∀ s call, field (apply call s) = (item call).getD (field s)) (s : σ) (calls : List γ) :
    field (calls.foldl (fun s call => apply call s) s) =
      (calls.filterMap item).getLast?.getD (field s) := by
  induction calls generalizing s with
  | nil => rfl
  | cons call calls ih =>
    rw [List.foldl_cons, ih, h]
    cases hi : item call with
    | none => simp [hi]
    | some x => cases hl : (calls.filterMap item).getLast? <;> simp [hi, List.getLast?_cons, hl]

/-- A field that no call changes. -/
theorem foldl_keeps (field : σ → α) (h : ∀ s call, field (apply call s) = field s) (s : σ)
    (calls : List γ) : field (calls.foldl (fun s call => apply call s) s) = field s := by
  induction calls generalizing s with
  | nil => rfl
  | cons call calls ih => rw [List.foldl_cons, ih, h]

end BoundSql
