import BoundSql.Command.Arguments

/-! Scanning arguments. Which options are given does not depend on what is made of them, so a scan
that was accepted has made of each option, one after another, what a scan that only notes them
down has noted. -/

namespace BoundSql.Command

variable {ο σ : Type} {flags : List (Flag ο)} {add : σ → Setting ο → Except Halt σ}

/-- Makes nothing of an option but a note. -/
def note (given : List (Setting ο)) (s : Setting ο) : Except Halt (List (Setting ο)) :=
  .ok (given ++ [s])

theorem foldlM_note (l ss : List (Setting ο)) : ss.foldlM note l = .ok (l ++ ss) := by
  induction ss generalizing l with
  | nil => rw [List.append_nil]; rfl
  | cons s ss ih =>
    have := ih (l ++ [s])
    rw [List.append_assoc] at this
    exact this

theorem bind_eq_ok {ε α β : Type} {x : Except ε α} {f : α → Except ε β} {b : β}
    (h : x >>= f = .ok b) : ∃ a, x = .ok a ∧ f a = .ok b := by
  cases x with
  | error e => cases h
  | ok a => exact ⟨a, rfl, h⟩

theorem Setting.read_eq_ok {α : Type} {s : Setting ο} {f : String → Except String α} {a : α}
    (h : s.read f = .ok a) : f s.value = .ok a := by
  unfold Setting.read at h
  cases hf : f s.value with
  | error e =>
    rw [hf] at h
    cases h
  | ok b =>
    rw [hf] at h
    cases h
    rfl

theorem Setting.once_eq_ok {α : Type} {s : Setting ο} {given : Bool} {result : Except Halt α}
    {a : α} (h : s.once given result = .ok a) : given = false ∧ result = .ok a := by
  unfold Setting.once at h
  split at h
  · cases h
  · next hg => exact ⟨by simpa using hg, h⟩

theorem foldlM_append_ok {as bs : List (Setting ο)} {s₀ s₁ s₂ : σ}
    (ha : as.foldlM add s₀ = .ok s₁) (hb : bs.foldlM add s₁ = .ok s₂) :
    (as ++ bs).foldlM add s₀ = .ok s₂ := by
  rw [List.foldlM_append, ha]
  exact hb

theorem Pending.settle_note {p : Pending ο} {state state' : σ}
    (h : p.settle add state = .ok state') :
    ∃ ss, (∀ l, p.settle note l = .ok (l ++ ss)) ∧ ss.foldlM add state = .ok state' := by
  cases p with
  | none =>
    refine ⟨[], fun l => ?_, h⟩
    rw [List.append_nil]
    rfl
  | waiting f => cases h
  | given s =>
    refine ⟨[s], fun l => rfl, ?_⟩
    rw [List.foldlM_cons]
    change (add state s >>= fun s' => pure s') = _
    rw [bind_pure]
    exact h

/-- What is pending behind an argument with options. -/
def Ending.pending? : Ending ο → Option (Pending ο)
  | complete => some .none
  | waiting f => some (.waiting f)
  | problem _ => none

namespace Scan

variable {state : σ} {p p' : Pending ο} {a : String} {rest : List String} {s : Scan ο σ}

/-- An argument with options, of which the last is complete or waits for its value. -/
theorem read_options {given : List (Setting ο)} {ending : Ending ο}
    (ha : readArgument flags a = .options given ending) (hp : ending.pending? = some p') :
    read flags add state p (a :: rest) = (do
      read flags add (← given.foldlM add (← p.settle add state)) p' rest) := by
  cases ending <;> cases hp <;> simp only [read, ha]

/-- A scan that was accepted ends at its first argument, or it goes on behind this in the same way
whatever follows. A scan that only takes notes goes on in the same way too. -/
theorem read_cons (h : read flags add state p (a :: rest) = .ok s) :
    (readArgument flags a = .separator ∧ s = ⟨state, p, rest, true⟩) ∨
    ((∃ w, readArgument flags a = .word w) ∧ (∀ f, p ≠ .waiting f) ∧
      s = ⟨state, p, a :: rest, false⟩) ∨
    ∃ state' p' ss, (∀ rest, read flags add state p (a :: rest) = read flags add state' p' rest) ∧
      (∀ l rest, read flags note l p (a :: rest) = read flags note (l ++ ss) p' rest) ∧
      ss.foldlM add state = .ok state' := by
  cases ha : readArgument flags a with
  | separator =>
    simp only [read, ha] at h
    cases h
    exact .inl ⟨rfl, rfl⟩
  | word w =>
    simp only [read, ha] at h
    cases p with
    | waiting f =>
      refine .inr (.inr ⟨state, .given ⟨f, w⟩, [], fun rest => ?_, fun l rest => ?_, rfl⟩)
      · simp only [read, ha]
      · simp only [read, ha, List.append_nil]
    | none | given g =>
      cases h
      exact .inr (.inl ⟨⟨w, rfl⟩, nofun, rfl⟩)
  | options given ending =>
    cases hp : ending.pending? with
    | none =>
      obtain ⟨e, rfl⟩ : ∃ e, ending = .problem e := by
        cases ending with
        | problem e => exact ⟨e, rfl⟩
        | complete | waiting => cases hp
      simp only [read, ha] at h
      cases given with
      | nil => cases h
      | cons g gs =>
        obtain ⟨_, -, h⟩ := bind_eq_ok h
        obtain ⟨_, -, h⟩ := bind_eq_ok h
        cases h
    | some p' =>
      rw [read_options ha hp] at h
      obtain ⟨state₁, hsettle, h⟩ := bind_eq_ok h
      obtain ⟨state₂, hgiven, -⟩ := bind_eq_ok h
      obtain ⟨ss, hnote, hfold⟩ := p.settle_note hsettle
      refine .inr (.inr ⟨state₂, p', ss ++ given, fun rest => ?_, fun l rest => ?_,
        foldlM_append_ok hfold hgiven⟩)
      · rw [read_options ha hp, hsettle]
        change (given.foldlM add state₁ >>= _) = _
        rw [hgiven]
        rfl
      · rw [read_options ha hp, hnote]
        change (given.foldlM note (l ++ ss) >>= _) = _
        rw [foldlM_note, List.append_assoc]
        rfl

theorem read_note {arguments : List String} (h : read flags add state p arguments = .ok s) :
    ∃ ss, (∀ l, read flags note l p arguments = .ok ⟨l ++ ss, s.pending, s.words, s.separated⟩) ∧
      ss.foldlM add state = .ok s.state := by
  -- the state and what is pending change from argument to argument
  induction arguments generalizing state p with
  | nil =>
    cases h
    exact ⟨[], fun l => by rw [List.append_nil]; rfl, rfl⟩
  | cons a rest ih =>
    obtain ⟨ha, rfl⟩ | ⟨⟨w, ha⟩, hp, rfl⟩ | ⟨state', p', ss, hnext, hnote, hfold⟩ := read_cons h
    · refine ⟨[], fun l => ?_, rfl⟩
      simp only [read, ha, List.append_nil]
    · refine ⟨[], fun l => ?_, rfl⟩
      cases p with
      | waiting f => exact absurd rfl (hp f)
      | none | given g => simp only [read, ha, List.append_nil]
    · rw [hnext] at h
      obtain ⟨ss', hnote', hfold'⟩ := ih h
      refine ⟨ss ++ ss', fun l => ?_, foldlM_append_ok hfold hfold'⟩
      rw [hnote, hnote', List.append_assoc]

/-- Nothing but options was read, and the last of them has its value. -/
structure Complete (s : Scan ο σ) : Prop where
  words : s.words = []
  separated : s.separated = false
  pending : ∀ f, s.pending ≠ .waiting f

/-- Behind options that are complete, the first word ends the scan. -/
theorem read_append {options : List String} (h : read flags add state p options = .ok s)
    (hs : s.Complete) {w : String} (hw : readArgument flags w = .word w) (rest : List String) :
    read flags add state p (options ++ w :: rest) = .ok { s with words := w :: rest } := by
  induction options generalizing state p with
  | nil =>
    cases h
    cases p with
    | waiting f => exact absurd rfl (hs.pending f)
    | none | given g => simp only [List.nil_append, read, hw]
  | cons a options ih =>
    obtain ⟨-, rfl⟩ | ⟨-, -, rfl⟩ | ⟨state', p', -, hnext, -⟩ := read_cons h
    · exact Bool.noConfusion hs.separated
    · exact absurd hs.words (List.cons_ne_nil _ _)
    · rw [hnext] at h
      rw [List.cons_append, hnext]
      exact ih h

/-- The options that arguments give, in their order. -/
def settings (flags : List (Flag ο)) (arguments : List String) :
    Except Halt (List (Setting ο)) := do
  (← read flags note [] .none arguments).settle note

/-- A scan makes something of all options that arguments give, in their order. -/
theorem foldlM_settings {state state' : σ} {arguments : List String} {s : Scan ο σ}
    (h : read flags add state .none arguments = .ok s) (hs : s.settle add = .ok state') :
    ∃ ss, settings flags arguments = .ok ss ∧ ss.foldlM add state = .ok state' := by
  obtain ⟨ss₁, hnote₁, hfold₁⟩ := read_note h
  obtain ⟨ss₂, hnote₂, hfold₂⟩ := s.pending.settle_note hs
  refine ⟨ss₁ ++ ss₂, ?_, foldlM_append_ok hfold₁ hfold₂⟩
  rw [settings, hnote₁, List.nil_append]
  exact hnote₂ ss₁

end Scan

end BoundSql.Command
