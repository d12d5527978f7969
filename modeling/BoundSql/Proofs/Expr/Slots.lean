import BoundSql.Proofs.Expr.Relabel

/-! The places for values in a tree, numbered from left to right, and the order in which writing
the tree comes by them. The place in a separator is visited several times, a place among columns to
give back perhaps never. -/

namespace BoundSql

/-- A number of places, and the numbers visited if the first place has the given number. -/
structure Numbering where
  count : Nat
  visits : Nat → List Nat

namespace Numbering

def none : Numbering := ⟨0, fun _ => []⟩

def append (a b : Numbering) : Numbering :=
  ⟨a.count + b.count, fun n => a.visits n ++ b.visits (n + a.count)⟩

instance : Append Numbering := ⟨append⟩

/-- The numbers visited by each of several parts. -/
def each : Nat → List Numbering → List (List Nat)
  | _, [] => []
  | n, m :: ms => m.visits n :: each (n + m.count) ms

def total : List Numbering → Nat
  | [] => 0
  | m :: ms => m.count + total ms

/-- The places of several parts one after another. -/
def all (ms : List Numbering) : Numbering := ⟨total ms, fun n => (each n ms).flatten⟩

/-- The places of several parts and then those of a separator, which is visited between them. -/
def joined (separator : Numbering) (ms : List Numbering) : Numbering :=
  ⟨total ms + separator.count, fun n => (separator.visits (n + total ms)).intercalate (each n ms)⟩

/-- Places that are passed over unless a condition holds. -/
def onlyIf (b : Bool) (m : Numbering) : Numbering :=
  ⟨m.count, fun n => if b then m.visits n else []⟩

/-- The visits read some values from the stored ones, whatever is stored around these. -/
def Reads (m : Numbering) (stored read : List Value) : Prop :=
  m.count = stored.length ∧ ∀ before after : List Value,
    (m.visits before.length).map ((before ++ stored ++ after)[·]?) = read.map some

theorem Reads.of_eq {m : Numbering} {s s' v v' : List Value} (h : m.Reads s v) (hs : s = s')
    (hv : v = v') : m.Reads s' v' := hs ▸ hv ▸ h

theorem reads_none : none.Reads [] [] := ⟨rfl, fun _ _ => rfl⟩

theorem Reads.append {a b : Numbering} {s t v w : List Value} (ha : a.Reads s v)
    (hb : b.Reads t w) : (a ++ b).Reads (s ++ t) (v ++ w) := by
  refine ⟨by rw [List.length_append, ← ha.1, ← hb.1]; rfl, fun before after => ?_⟩
  have h1 := ha.2 before (t ++ after)
  have h2 := hb.2 (before ++ s) after
  rw [List.length_append, ← ha.1] at h2
  simp only [← List.append_assoc] at h1 h2 ⊢
  rw [List.map_append, ← h1, ← h2]
  exact List.map_append

theorem reads_bind (v : Value) : (⟨1, fun n => [n]⟩ : Numbering).Reads [v] [v] := by
  refine ⟨rfl, fun before after => ?_⟩
  simp

theorem reads_binds (vs : List Value) :
    (⟨vs.length, fun n => List.range' n vs.length⟩ : Numbering).Reads vs vs := by
  refine ⟨rfl, fun before after => ?_⟩
  apply List.ext_getElem (by simp)
  intro i hi _
  simp only [List.length_map, List.length_range'] at hi
  simp [List.getElem?_append, hi]

theorem Reads.onlyIf {m : Numbering} {s v : List Value} (b : Bool) (h : m.Reads s v) :
    (m.onlyIf b).Reads s (if b then v else []) := by
  refine ⟨h.1, fun before after => ?_⟩
  cases b
  · rfl
  · exact h.2 before after

theorem map_intercalate {α β : Type} (f : α → β) (x : List α) (xs : List (List α)) :
    (x.intercalate xs).map f = (x.map f).intercalate (xs.map (List.map f)) := by
  induction xs with
  | nil => rfl
  | cons y ys ih => cases ys <;> simp_all [List.intercalate_cons_cons]

variable {ι : Type} {m : ι → Numbering} {s v : ι → List Value}

theorem total_eq {is : List ι} (h : ∀ i ∈ is, (m i).Reads (s i) (v i)) :
    total (is.map m) = ((is.map s).flatten).length := by
  induction is with
  | nil => rfl
  | cons i is ih =>
    have hi := (h i (by simp)).1
    have := ih fun j hj => h j (by simp [hj])
    simp_all [total]

theorem each_reads {is : List ι} (h : ∀ i ∈ is, (m i).Reads (s i) (v i))
    (before after : List Value) :
    (each before.length (is.map m)).map
        (List.map ((before ++ (is.map s).flatten ++ after)[·]?)) =
      is.map fun i => (v i).map some := by
  induction is generalizing before with
  | nil => rfl
  | cons i is ih =>
    obtain ⟨hc, hi⟩ := h i (by simp)
    have h1 := hi before ((is.map s).flatten ++ after)
    have h2 := ih (fun j hj => h j (by simp [hj])) (before ++ s i)
    rw [List.length_append, ← hc] at h2
    simp only [← List.append_assoc] at h1 h2
    simp only [List.map_cons, List.flatten_cons, each, ← List.append_assoc, h1, h2]

theorem Reads.all {is : List ι} (h : ∀ i ∈ is, (m i).Reads (s i) (v i)) :
    (all (is.map m)).Reads (is.map s).flatten (is.map v).flatten := by
  refine ⟨total_eq h, fun before after => ?_⟩
  rw [Numbering.all, List.map_flatten, each_reads h]
  simp [List.map_flatten, Function.comp_def]

theorem Reads.joined {x : Numbering} {t w : List Value} (hx : x.Reads t w) {is : List ι}
    (h : ∀ i ∈ is, (m i).Reads (s i) (v i)) :
    (joined x (is.map m)).Reads ((is.map s).flatten ++ t) (w.intercalate (is.map v)) := by
  refine ⟨by rw [List.length_append, ← total_eq h, ← hx.1]; rfl, fun before after => ?_⟩
  have h1 := each_reads h before (t ++ after)
  have h2 := hx.2 (before ++ (is.map s).flatten) after
  rw [List.length_append, ← total_eq h] at h2
  simp only [← List.append_assoc] at h1 h2 ⊢
  rw [Numbering.joined, map_intercalate, map_intercalate, h1, h2, List.map_map]
  rfl

end Numbering

namespace Expr

variable {β : Type}

/-- The numbers of the places below each node. -/
def numbering (returning : Bool) : Algebra Empty Numbering where
  raw _ := .none
  identifier _ := .none
  column _ _ := .none
  aliased m _ := m
  literal _ := .none
  bind _ := ⟨1, fun n => [n]⟩
  binds vs := ⟨vs.length, fun n => List.range' n vs.length⟩
  list ms m := .joined m ms
  group m := m
  binary l _ r := l ++ r
  operator _ := .none
  function _ ms := .all ms
  join _ m o := m ++ .all o.toList
  order m _ := m
  lock _ := .none
  spaced m := m
  select s := .all s.parts
  insert s := s.table ++ .all s.columns ++ .all s.values.flatten ++ .onlyIf returning (.all s.returning)
  update s := s.table ++ .all s.values ++ .all s.predicate.toList ++
    .onlyIf returning (.all s.returning)
  delete s := s.table ++ .all s.predicate.toList ++ .onlyIf returning (.all s.returning)
  own := nofun

/-- The values below each node from left to right, each once. -/
def storing : Algebra Empty (List Value) where
  raw _ := []
  identifier _ := []
  column _ _ := []
  aliased vs _ := vs
  literal _ := []
  bind v := [v]
  binds vs := vs
  list vss vs := vss.flatten ++ vs
  group vs := vs
  binary l _ r := l ++ r
  operator _ := []
  function _ vss := vss.flatten
  join _ vs o := vs ++ o.toList.flatten
  order vs _ := vs
  lock _ := []
  spaced vs := vs
  select s := s.parts.flatten
  insert s := s.table ++ s.columns.flatten ++ s.values.flatten.flatten ++ s.returning.flatten
  update s := s.table ++ s.values.flatten ++ s.predicate.getD [] ++ s.returning.flatten
  delete s := s.table ++ s.predicate.getD [] ++ s.returning.flatten
  own := nofun

/-- The values in the places of a tree from left to right. -/
def slots (e : Expr Empty) : List Value := e.fold storing

/-- The numbers of the places of a tree in the order of the visits. -/
def slotOrder (returning : Bool) (e : Expr Empty) : List Nat := (e.fold (numbering returning)).visits 0

/-- The places of a tree are where they are, whatever values they hold. -/
theorem fold_relabel (f : Relabelling) (returning : Bool) (e : Expr Empty) :
    (e.relabel f).fold (numbering returning) = e.fold (numbering returning) :=
  fold_fusion (h := fold (numbering returning)) {
    binds := fun vs => by simp [relabelling, numbering, fold]
    list := fold_list _
    function := fold_function _
    join := fold_join _
    select := fold_select _
    insert := fold_insert _
    update := fold_update _
    delete := fold_delete _ } e

/-- The visits to the places of a tree read its values in the order of its bind nodes. -/
theorem reads_slots (returning : Bool) (e : Expr Empty) :
    (e.fold (numbering returning)).Reads e.slots (e.values returning) := by
  induction e using induction with
  | step e ih =>
    have all (xs : List (Expr Empty)) (h : ∀ x ∈ xs, x ∈ e.children) :=
      Numbering.Reads.all (m := fold (numbering returning)) (s := slots) (v := values returning)
        fun x hx => ih x (h x hx)
    cases e with
    | raw | identifier | operator | lock => exact Numbering.reads_none
    | column t n =>
      refine Numbering.reads_none.of_eq rfl ?_
      cases t <;> by_cases h : n = "*" <;> simp [values, visit, fold, visiting]
    | literal l => cases l <;> exact Numbering.reads_none
    | own n => exact n.elim
    | bind v => exact Numbering.reads_bind v
    | binds vs => exact (Numbering.reads_binds vs).of_eq rfl (List.flatMap_singleton' vs).symm
    | aliased x n => exact (ih x (by simp [children])).of_eq rfl (List.append_nil _).symm
    | group x => exact ih x (by simp [children])
    | order x d => exact ih x (by simp [children])
    | spaced x => exact ih x (by simp [children])
    | binary x op y =>
      exact Numbering.Reads.append (ih x (by simp [children])) (ih y (by simp [children]))
    | list xs x =>
      have hx := ih x (by simp [children])
      have hxs := hx.joined fun y (hy : y ∈ xs) => ih y (by simp [children, hy])
      rw [fold_list, slots, fold_list, values, visit, fold_list]
      exact hxs
    | function n xs =>
      rw [fold_function, slots, fold_function, values, visit, fold_function]
      exact all xs fun x hx => hx
    | join m x o =>
      have h := (ih x (by simp [children])).append
        (all o.toList fun y hy => by simp [children, hy])
      rw [fold_join, slots, fold_join, values, visit, fold_join]
      cases o with
      | none => exact h
      | some y => exact h.of_eq rfl (congrArg _ (List.append_nil _))
    | select s =>
      have h := all s.parts fun x hx => hx
      simp only [← Select.parts_map] at h
      rw [fold_select, slots, fold_select, values, visit, fold_select, visiting_select]
      exact h
    | insert s =>
      have ht := ih s.table (by simp [children, Insert.parts])
      have hc := all s.columns fun x hx => by simp [children, Insert.parts, hx]
      have hv := all s.values.flatten fun x hx => by simp [children, Insert.parts, hx]
      have hr := all s.returning fun x hx => by simp [children, Insert.parts, hx]
      have h := (ht.append hc |>.append hv).append (hr.onlyIf returning)
      simp only [List.map_flatten] at h
      rw [fold_insert, slots, fold_insert, values, visit, fold_insert]
      exact h
    | update s =>
      have ht := ih s.table (by simp [children, Update.parts])
      have hv := all s.values fun x hx => by simp [children, Update.parts, hx]
      have hp := all s.predicate.toList fun x hx => by
        simp [children, Update.parts, Option.mem_toList.1 hx]
      have hr := all s.returning fun x hx => by simp [children, Update.parts, hx]
      have h := (ht.append hv |>.append hp).append (hr.onlyIf returning)
      simp only [← Option.toList_map, flatten_toList] at h
      rw [fold_update, slots, fold_update, values, visit, fold_update]
      exact h
    | delete s =>
      have ht := ih s.table (by simp [children, Delete.parts])
      have hp := all s.predicate.toList fun x hx => by
        simp [children, Delete.parts, Option.mem_toList.1 hx]
      have hr := all s.returning fun x hx => by simp [children, Delete.parts, hx]
      have h := (ht.append hp).append (hr.onlyIf returning)
      simp only [← Option.toList_map, flatten_toList] at h
      rw [fold_delete, slots, fold_delete, values, visit, fold_delete]
      exact h

end Expr

end BoundSql
