import BoundSql.Proofs.Database

/-! What a recording database replays. A replay can fail in two places: in front of a row, or behind
the last one. The number of rows after which it is to fail belongs to exactly one of the places, so
whatever the number, there is one failure, and it comes behind as many rows as there can be. -/

namespace BoundSql

namespace Recording

/-- The loop over numbered rows: what it delivers, and whether it is left in front of a row. -/
def loop (failAfter : Option Nat) : List (Row × Nat) → List Row × Bool
  | [] => ([], false)
  | (r, k) :: rest =>
    if failAfter = some k then ([], true)
    else
      let (rows, left) := loop failAfter rest
      (r :: rows, left)

/-- Whether the failure comes behind the last of a number of rows. -/
def failsBehind (failAfter : Option Nat) (count : Nat) : Bool := failAfter.any (count ≤ ·)

/-- A replay is the loop, and behind it, unless the loop was left, a last chance to fail. -/
theorem replay_eq_loop (failAfter : Option Nat) (first : Nat) (rows : List Row) :
    replay failAfter first rows =
      ⟨(loop failAfter (rows.zipIdx first)).1,
        if (loop failAfter (rows.zipIdx first)).2 then .error failure
        else if failsBehind failAfter (first + rows.length) then .error failure
        else .ok ()⟩ := by
  induction rows generalizing first with
  | nil =>
    cases failAfter with
    | none => rfl
    | some n => by_cases h : first ≤ n <;> simp [replay, loop, failsBehind, h]
  | cons r rest ih =>
    have hlength : first + (r :: rest).length = first + 1 + rest.length := by
      rw [List.length_cons]
      omega
    rw [replay, List.zipIdx_cons, loop, hlength]
    by_cases h : failAfter = some first
    · simp [h]
    · simp only [h, if_false, ih]

/-- The loop is left for the numbers of its rows. -/
theorem left_loop (failAfter : Option Nat) (first : Nat) (rows : List Row) :
    (loop failAfter (rows.zipIdx first)).2 =
      failAfter.any fun n => first ≤ n ∧ n < first + rows.length := by
  induction rows generalizing first with
  | nil =>
    cases failAfter with
    | none => rfl
    | some n => simp [loop]
  | cons r rest ih =>
    rw [List.zipIdx_cons, loop, List.length_cons]
    cases failAfter with
    | none => exact ih (first + 1)
    | some n =>
      by_cases h : n = first
      · simp [h]
      · have hbound : (first + 1 ≤ n ∧ n < first + 1 + rest.length) ↔
            (first ≤ n ∧ n < first + (rest.length + 1)) := by omega
        have hlater : ¬some n = some first := fun he => h (Option.some.inj he)
        rw [if_neg hlater]
        exact (ih (first + 1)).trans (decide_eq_decide.2 hbound)

theorem replay_none (first : Nat) (rows : List Row) : replay none first rows = ⟨rows, .ok ()⟩ := by
  induction rows generalizing first with
  | nil => rfl
  | cons r rest ih => simp [replay, ih]

theorem replay_some (n first : Nat) (rows : List Row) :
    replay (some (first + n)) first rows = ⟨rows.take n, .error failure⟩ := by
  induction rows generalizing n first with
  | nil => simp [replay]
  | cons r rest ih =>
    cases n with
    | zero => simp [replay]
    | succ n =>
      have hnext : first + (n + 1) = first + 1 + n := by omega
      have hlater : ¬some (first + 1 + n) = some first := by simp; omega
      rw [hnext, replay, if_neg hlater, ih]
      rfl

/-- What is delivered, by the number after which it fails. -/
theorem delivery_eq (r : Recording) :
    r.delivery = ⟨r.rows.take (r.failAfter.elim r.rows.length (min · r.rows.length)),
      if r.failAfter.isSome then .error failure else .ok ()⟩ := by
  rw [delivery]
  cases r.failAfter with
  | none => simp [replay_none]
  | some n =>
    have h := replay_some n 0 r.rows
    rw [Nat.zero_add] at h
    simp [h, List.take_eq_take_min]

/-- The number of the failure belongs to one of the two places. -/
theorem left_add_failsBehind (failAfter : Option Nat) (rows : List Row) :
    (loop failAfter rows.zipIdx).2.toNat + (failsBehind failAfter rows.length).toNat =
      failAfter.toList.length := by
  rw [left_loop, Nat.zero_add]
  cases failAfter with
  | none => rfl
  | some n =>
    by_cases h : n < rows.length
    · simp [failsBehind, h]
    · simp [failsBehind, h, Nat.not_lt.1 h]

/-- Every query is answered with the first rows, each once and in order: as many as are to come before
the failure, or all. It fails if and only if it is told to, with one failure in one of the two places,
and success means that no row is missing. The query is noted before the first row comes, and nothing
else changes. -/
theorem replay_fails_in_one_place (q : Query) (r : Recording) :
    let (d, r') := r.execute q
    let left := (loop r.failAfter r.rows.zipIdx).2
    let behind := failsBehind r.failAfter r.rows.length
    d.rows = r.rows.take (r.failAfter.elim r.rows.length (min · r.rows.length)) ∧
    d.outcome = (if left then .error failure else if behind then .error failure else .ok ()) ∧
    left.toNat + behind.toNat = r.failAfter.toList.length ∧
    ((∃ text, d.outcome = .error (.driver text)) ↔ r.failAfter.isSome = true) ∧
    (d.outcome = .ok () ↔ r.failAfter = none ∧ d.rows = r.rows) ∧
    r' = { r with executed := r.executed ++ [q] } ∧
    (Database.perform q (.recording r)).effects = .recorded q :: d.rows.map .delivered := by
  have hloop : r.delivery.outcome = _ :=
    congrArg Delivery.outcome (replay_eq_loop r.failAfter 0 r.rows)
  rw [Nat.zero_add] at hloop
  have hrows : r.delivery.rows = _ := congrArg Delivery.rows r.delivery_eq
  have houtcome : r.delivery.outcome = _ := congrArg Delivery.outcome r.delivery_eq
  refine ⟨hrows, hloop, left_add_failsBehind r.failAfter r.rows, ?_, ?_, rfl, rfl⟩
  · show (∃ text, r.delivery.outcome = .error (.driver text)) ↔ _
    rw [houtcome]
    cases r.failAfter with
    | none => simp
    | some n => simp [failure]
  · show r.delivery.outcome = .ok () ↔ r.failAfter = none ∧ r.delivery.rows = r.rows
    rw [houtcome, hrows]
    cases r.failAfter <;> simp

end Recording

end BoundSql
