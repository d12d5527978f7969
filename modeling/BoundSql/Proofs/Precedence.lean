import Mathlib.Data.List.SplitBy
import Mathlib.Data.List.TakeWhile
import Mathlib.Order.BoundedOrder.Lattice
import BoundSql.Builder.Restriction

/-! How conditions with connectives between them are read: AND binds tighter than OR. Truth values
come from any bounded lattice, in which AND is the meet and OR the join; there may be two of them, or
three with the unknown in between. -/

namespace BoundSql

/-- A condition, or a connective between two conditions. -/
inductive Word (β : Type) where
  | condition (b : β)
  | connective (c : Connective)

/-- Conditions with the connectives before them, written as words. Nothing stands before the first. -/
def Word.sequence {β : Type} : List (Connective × β) → List (Word β)
  | [] => []
  | (_, b) :: cs => condition b :: cs.flatMap fun (c, b) => [connective c, condition b]

def Word.map {α β : Type} (f : α → β) : Word α → Word β
  | condition a => condition (f a)
  | connective c => connective c

variable {α β : Type}

theorem Word.map_sequence (f : α → β) (cs : List (Connective × α)) :
    (sequence cs).map (Word.map f) = sequence (cs.map fun c => (c.1, f c.2)) := by
  cases cs with
  | nil => rfl
  | cons c cs => simp [sequence, Word.map, List.map_flatMap, List.flatMap_map]

section Reading

variable [Lattice α]

/-- Conditions with AND between them, and the truth value of all. -/
inductive Conjunction : List (Word α) → α → Prop
  | condition (x : α) : Conjunction [.condition x] x
  | and {ws vs : List (Word α)} {x y : α} (hl : Conjunction ws x) (hr : Conjunction vs y) :
    Conjunction (ws ++ .connective .and :: vs) (x ⊓ y)

/-- Conjunctions with OR between them, and the truth value of all. -/
inductive Disjunction : List (Word α) → α → Prop
  | conjunction {ws : List (Word α)} {x : α} (h : Conjunction ws x) : Disjunction ws x
  | or {ws vs : List (Word α)} {x y : α} (hl : Disjunction ws x) (hr : Disjunction vs y) :
    Disjunction (ws ++ .connective .or :: vs) (x ⊔ y)

/-- Joins a truth value to the one before. -/
def Connective.apply : Connective → α → α → α
  | and => (· ⊓ ·)
  | or => (· ⊔ ·)

theorem Disjunction.and {ws vs : List (Word α)} {x y : α} (h : Disjunction ws x)
    (hv : Conjunction vs y) : ∃ z, Disjunction (ws ++ .connective .and :: vs) z := by
  induction h with
  | conjunction h => exact ⟨_, .conjunction (h.and hv)⟩
  | or hl hr _ ihr =>
    obtain ⟨z, hz⟩ := ihr
    rw [List.append_assoc]
    exact ⟨_, hl.or hz⟩

theorem Word.disjunction_sequence {cs : List (Connective × α)} (hne : cs ≠ []) :
    ∃ x, Disjunction (sequence cs) x := by
  obtain ⟨c, cs, rfl⟩ := List.exists_cons_of_ne_nil hne
  induction cs using List.reverseRecOn with
  | nil => exact ⟨c.2, .conjunction (.condition c.2)⟩
  | append_singleton cs b ih =>
    obtain ⟨x, hx⟩ := ih (List.cons_ne_nil c cs)
    have hsequence : sequence (c :: (cs ++ [b])) =
        sequence (c :: cs) ++ .connective b.1 :: [.condition b.2] := by
      simp [sequence]
    rw [hsequence]
    obtain ⟨_ | _, y⟩ := b
    · exact hx.and (.condition y)
    · exact ⟨_, hx.or (.conjunction (.condition y))⟩

end Reading

/-- The maximal runs of conditions, cut before each OR. -/
def Connective.runs (cs : List (Connective × β)) : List (List (Connective × β)) :=
  cs.splitBy fun _ c => c.1 = .and

section Values

variable [Lattice α] [BoundedOrder α]

/-- The truth value when each condition is joined to all before it. -/
def leftToRight : List (Connective × α) → α
  | [] => ⊥
  | (_, x) :: cs => cs.foldl (fun x c => c.1.apply x c.2) x

def allOf (run : List (Connective × α)) : α := run.foldr (fun c x => c.2 ⊓ x) ⊤

/-- The truth value when some run holds, all of whose conditions hold. -/
def someRun (cs : List (Connective × α)) : α :=
  (Connective.runs cs).foldr (fun run x => allOf run ⊔ x) ⊥

end Values

/-! Runs from the front. -/

def isAnd (c : Connective × β) : Bool := c.1 = .and

theorem Connective.runs_cons (c : Connective × β) (cs : List (Connective × β)) :
    runs (c :: cs) = (c :: cs.takeWhile isAnd) :: runs (cs.dropWhile isAnd) := by
  have hcut : ∀ x ∈ (c :: cs.takeWhile isAnd).getLast?, ∀ y ∈ (cs.dropWhile isAnd).head?,
      (fun _ b : Connective × β => decide (b.1 = .and)) x y = false := by
    intro _ _ y hy
    have := List.head?_dropWhile_not isAnd cs
    rwa [Option.mem_def.1 hy] at this
  have hand : ∀ y ∈ cs.takeWhile isAnd, decide (y.1 = .and) = true :=
    fun _ hy => List.mem_takeWhile_imp (p := isAnd) hy
  have hrun : (c :: cs.takeWhile isAnd).IsChain fun _ y => decide (y.1 = .and) = true :=
    (List.pairwise_cons.2 ⟨hand, List.pairwise_of_forall_mem_list fun _ _ y hy => hand y hy⟩).isChain
  have happ := List.splitBy_append hcut
  rw [List.cons_append, List.takeWhile_append_dropWhile,
    List.splitBy_of_isChain (List.cons_ne_nil _ _) hrun] at happ
  exact happ

variable [Lattice α] [BoundedOrder α]

theorem someRun_cons (c : Connective × α) (cs : List (Connective × α)) :
    someRun (c :: cs) = c.2 ⊓ allOf (cs.takeWhile isAnd) ⊔ someRun (cs.dropWhile isAnd) := by
  rw [someRun, Connective.runs_cons]
  rfl

/-! The truth value of words, read from their end. -/

/-- The truth value of the conditions before the first OR, and that of what follows it. -/
def Word.values : List (Word α) → α × α
  | [] => (⊤, ⊥)
  | condition x :: ws => (x ⊓ (values ws).1, (values ws).2)
  | connective .and :: ws => values ws
  | connective .or :: ws => (⊤, (values ws).1 ⊔ (values ws).2)

def Word.value (ws : List (Word α)) : α := (values ws).1 ⊔ (values ws).2

theorem Conjunction.values_append {ws : List (Word α)} {x : α} (h : Conjunction ws x)
    (vs : List (Word α)) :
    Word.values (ws ++ vs) = (x ⊓ (Word.values vs).1, (Word.values vs).2) := by
  induction h generalizing vs with
  | condition x => rfl
  | and hl hr ihl ihr =>
    rw [List.append_assoc, List.cons_append, ihl, Word.values, ihr, inf_assoc]

theorem Conjunction.value_or {ws : List (Word α)} {x : α} (h : Conjunction ws x)
    (vs : List (Word α)) :
    Word.value (ws ++ .connective .or :: vs) = x ⊔ Word.value vs := by
  rw [Word.value, h.values_append, Word.values, inf_top_eq]
  rfl

theorem Disjunction.value_or {ws : List (Word α)} {x : α} (h : Disjunction ws x)
    (vs : List (Word α)) :
    Word.value (ws ++ .connective .or :: vs) = x ⊔ Word.value vs := by
  induction h generalizing vs with
  | conjunction h => exact h.value_or vs
  | or hl hr ihl ihr => rw [List.append_assoc, List.cons_append, ihl, ihr, sup_assoc]

/-- Words are read with one truth value only. -/
theorem Disjunction.value_eq {ws : List (Word α)} {x : α} (h : Disjunction ws x) :
    Word.value ws = x := by
  induction h with
  | conjunction h =>
    have := h.values_append []
    rw [List.append_nil] at this
    rw [Word.value, this, Word.values, inf_top_eq, sup_bot_eq]
  | or hl hr _ ihr => rw [hl.value_or, ihr]

/-! A sequence of conditions can be read, and its truth value is that of its runs. -/

theorem Word.values_rest (cs : List (Connective × α)) :
    values (cs.flatMap fun c => [connective c.1, condition c.2]) =
      (allOf (cs.takeWhile isAnd), someRun (cs.dropWhile isAnd)) := by
  induction cs with
  | nil => rfl
  | cons c cs ih =>
    obtain ⟨_ | _, x⟩ := c
    · show values (condition x :: cs.flatMap _) = _
      rw [values, ih]
      rfl
    · show (⊤, (values (condition x :: cs.flatMap _)).1 ⊔ (values (condition x :: cs.flatMap _)).2) = _
      rw [values, ih, ← someRun_cons (.or, x)]
      rfl

theorem Word.value_sequence (c : Connective × α) (cs : List (Connective × α)) :
    value (sequence (c :: cs)) = someRun (c :: cs) := by
  show value (condition c.2 :: cs.flatMap fun c => [connective c.1, condition c.2]) = _
  rw [value, values, values_rest, someRun_cons]

/-- Read with AND tighter than OR, conditions hold if all conditions of some run hold. -/
theorem Word.disjunction_sequence_iff {cs : List (Connective × α)} (hne : cs ≠ []) (x : α) :
    Disjunction (sequence cs) x ↔ x = someRun cs := by
  obtain ⟨y, hy⟩ := disjunction_sequence hne
  obtain ⟨c, cs, rfl⟩ := List.exists_cons_of_ne_nil hne
  constructor
  · intro h
    rw [← h.value_eq, value_sequence]
  · rintro rfl
    rwa [← value_sequence, hy.value_eq]

/-! Reading from left to right. -/

/-- No AND behind an OR, but for the first connective, which joins nothing. -/
def Connective.AndsFirst (ops : List Connective) : Prop :=
  ops.tail.Pairwise fun a b => a = .or → b ≠ .and

theorem foldl_of_ors {cs : List (Connective × α)} (h : ∀ c ∈ cs, c.1 = .or) (x : α) :
    cs.foldl (fun x c => c.1.apply x c.2) x = x ⊔ someRun cs := by
  induction cs generalizing x with
  | nil => exact (sup_bot_eq x).symm
  | cons c cs ih =>
    obtain ⟨op, y⟩ := c
    obtain rfl : op = .or := h _ List.mem_cons_self
    have hcs : ∀ c ∈ cs, c.1 = .or := fun c hc => h c (.tail _ hc)
    have hrun : cs.takeWhile isAnd = [] ∧ cs.dropWhile isAnd = cs := by
      cases cs with
      | nil => exact ⟨rfl, rfl⟩
      | cons c cs => simp [isAnd, hcs c List.mem_cons_self]
    rw [List.foldl_cons, ih hcs, someRun_cons, hrun.1, hrun.2, ← sup_assoc]
    show _ = x ⊔ (y ⊓ ⊤) ⊔ _
    rw [inf_top_eq]
    rfl

theorem foldl_of_andsFirst {cs : List (Connective × α)}
    (h : (cs.map Prod.fst).Pairwise fun a b => a = .or → b ≠ .and) (x : α) :
    cs.foldl (fun x c => c.1.apply x c.2) x =
      x ⊓ allOf (cs.takeWhile isAnd) ⊔ someRun (cs.dropWhile isAnd) := by
  induction cs generalizing x with
  | nil =>
    show x = x ⊓ ⊤ ⊔ ⊥
    rw [inf_top_eq, sup_bot_eq]
  | cons c cs ih =>
    obtain ⟨_ | _, y⟩ := c
    · rw [List.foldl_cons, ih (List.pairwise_cons.1 h).2]
      show x ⊓ y ⊓ allOf (cs.takeWhile isAnd) ⊔ _ = x ⊓ (y ⊓ allOf (cs.takeWhile isAnd)) ⊔ _
      rw [inf_assoc]
      rfl
    · have hors : ∀ c ∈ (Connective.or, y) :: cs, c.1 = .or := by
        intro c hc
        obtain rfl | hc := List.mem_cons.1 hc
        · rfl
        · have := (List.pairwise_cons.1 h).1 c.1 (List.mem_map_of_mem hc) rfl
          revert this
          cases c.1 <;> simp
      rw [foldl_of_ors hors]
      show _ = x ⊓ ⊤ ⊔ _
      rw [inf_top_eq]
      rfl

/-- The tree of the calls and the text agree if no AND comes behind an OR. -/
theorem leftToRight_eq_someRun {cs : List (Connective × α)}
    (h : Connective.AndsFirst (cs.map Prod.fst)) : leftToRight cs = someRun cs := by
  cases cs with
  | nil => rfl
  | cons c cs => exact (foldl_of_andsFirst h c.2).trans (someRun_cons c cs).symm

/-! Truth values for which the two readings differ. -/

theorem exists_or_and {ops : List Connective}
    (h : ¬ops.Pairwise fun a b => a = .or → b ≠ .and) :
    ∃ n rest, ops = List.replicate n .and ++ .or :: rest ∧ .and ∈ rest := by
  induction ops with
  | nil => exact absurd .nil h
  | cons op ops ih =>
    rw [List.pairwise_cons, not_and_or] at h
    cases op with
    | and =>
      have hops := h.resolve_left (not_not_intro nofun)
      obtain ⟨n, rest, rfl, hrest⟩ := ih hops
      exact ⟨n + 1, rest, rfl, hrest⟩
    | or =>
      by_cases hand : .and ∈ ops
      · exact ⟨0, ops, rfl, hand⟩
      · refine absurd ?_ (h.resolve_left (not_not_intro ?_))
        · exact List.pairwise_of_forall_mem_list fun _ _ b hb _ hb' => hand (hb' ▸ hb)
        · exact fun b hb _ hb' => hand (hb' ▸ hb)

theorem foldl_top (n : ℕ) (rest : List (Connective × α)) :
    (List.replicate n (Connective.and, (⊤ : α)) ++ rest).foldl (fun x c => c.1.apply x c.2) ⊤ =
      rest.foldl (fun x c => c.1.apply x c.2) ⊤ := by
  induction n with
  | zero => rfl
  | succ n ih =>
    rw [← ih, List.replicate_succ, List.cons_append, List.foldl_cons]
    exact congrArg (List.foldl _ · _) (inf_idem ⊤)

/-- One AND is enough to lose what held before it. -/
theorem foldl_bot {ops : List Connective} {x : α} (h : x = ⊥ ∨ .and ∈ ops) :
    (ops.map (·, (⊥ : α))).foldl (fun x c => c.1.apply x c.2) x = ⊥ := by
  induction ops generalizing x with
  | nil => exact h.resolve_right (List.not_mem_nil)
  | cons op ops ih =>
    cases op with
    | and => exact ih (.inl (inf_bot_eq x))
    | or =>
      obtain rfl | hand := h
      · exact ih (.inl (sup_idem ⊥))
      · exact ih (.inr (List.mem_of_ne_of_mem (by decide) hand))

theorem allOf_replicate (n : ℕ) : allOf (List.replicate n (Connective.and, (⊤ : α))) = ⊤ := by
  induction n with
  | zero => rfl
  | succ n ih => exact (congrArg ((⊤ : α) ⊓ ·) ih).trans (inf_idem ⊤)

/-- If an AND comes behind an OR, truth values in the first run only are lost from left to right. -/
theorem exists_leftToRight_ne [Nontrivial α] {ops : List Connective}
    (h : ¬Connective.AndsFirst ops) :
    ∃ cs : List (Connective × α), cs.map Prod.fst = ops ∧ leftToRight cs ≠ someRun cs := by
  obtain _ | ⟨op, ops⟩ := ops
  · exact absurd .nil h
  obtain ⟨n, rest, rfl, hand⟩ := exists_or_and h
  refine ⟨(op, ⊤) :: (List.replicate n (.and, ⊤) ++ (.or :: rest).map (·, ⊥)), ?_, ?_⟩
  · simp [Function.comp_def]
  · have hleft : leftToRight ((op, ⊤) :: (List.replicate n (.and, ⊤) ++
        (.or :: rest).map (·, (⊥ : α)))) = ⊥ :=
      (foldl_top n _).trans (foldl_bot (.inr (.tail _ hand)))
    have hrun : (List.replicate n (Connective.and, (⊤ : α)) ++
        (.or :: rest).map (·, (⊥ : α))).takeWhile isAnd = List.replicate n (.and, ⊤) := by
      rw [List.takeWhile_append_of_pos fun c hc => by rw [List.eq_of_mem_replicate hc]; rfl]
      exact List.append_nil _
    rw [hleft, someRun_cons, hrun, allOf_replicate, inf_idem, top_sup_eq]
    exact bot_ne_top

/-- Whatever the conditions are, joining them from left to right reads them as the text does exactly
if no AND comes behind an OR. -/
theorem leftToRight_eq_iff [Nontrivial α] (ops : List Connective) :
    (∀ cs : List (Connective × α), cs.map Prod.fst = ops → someRun cs = leftToRight cs) ↔
      Connective.AndsFirst ops := by
  constructor
  · intro h
    by_contra hops
    obtain ⟨cs, hcs, hne⟩ := exists_leftToRight_ne (α := α) hops
    exact hne (h cs hcs).symm
  · rintro h cs rfl
    exact (leftToRight_eq_someRun h).symm

end BoundSql
