import BoundSql.Expr

/-! Induction over trees, and functions that are determined by what they make of each node. Such a
function is a fold, and a map between two folds is checked node by node. -/

namespace BoundSql

variable {ε δ γ : Type}

namespace Segment

/-- The same form over other expressions. -/
def map (f : ε → δ) : Segment ε → Segment δ
  | flag word present => flag word present
  | items es => items (es.map f)
  | clause keyword es => clause keyword (es.map f)
  | joins es => joins (es.map f)
  | optional keyword o => optional keyword (o.map f)
  | count keyword n => count keyword n
  | locking o => locking (o.map f)

theorem map_map (f : ε → δ) (g : δ → γ) (s : Segment ε) : (s.map f).map g = s.map (g ∘ f) := by
  cases s <;> simp [map]

/-- The expressions of a clause. -/
def parts : Segment ε → List ε
  | flag _ _ | count _ _ => []
  | items es | clause _ es | joins es => es
  | optional _ o | locking o => o.toList

/-- The words that a clause may bring with it. -/
def words : Segment ε → List String
  | flag w _ | clause w _ | optional w _ | count w _ => [w]
  | items _ | joins _ | locking _ => []

end Segment

namespace Select

/-- The expressions among the clauses, in the order of the grammar. -/
def parts (s : Select ε) : List ε :=
  s.columns ++ s.tables ++ s.joins ++ s.predicate.toList ++ s.groupBy ++ s.having.toList ++
    s.orderBy ++ s.locking.toList

theorem forall_parts {p : ε → Prop} {s : Select ε} :
    (∀ e ∈ s.parts, p e) ↔
      (∀ e ∈ s.columns, p e) ∧ (∀ e ∈ s.tables, p e) ∧ (∀ e ∈ s.joins, p e) ∧
      (∀ e ∈ s.predicate, p e) ∧ (∀ e ∈ s.groupBy, p e) ∧ (∀ e ∈ s.having, p e) ∧
      (∀ e ∈ s.orderBy, p e) ∧ ∀ e ∈ s.locking, p e := by
  simp only [parts, List.mem_append, Option.mem_toList, Option.mem_def, or_imp, forall_and,
    and_assoc]

theorem parts_map (f : ε → δ) (s : Select ε) : (s.map f).parts = s.parts.map f := by
  simp [parts, map, Option.toList_map]

theorem segment_map (f : ε → δ) (s : Select ε) (c : Clause) :
    (s.map f).segment c = (s.segment c).map f := by cases c <;> rfl

theorem parts_eq_flatMap (s : Select ε) :
    s.parts = Clause.inOrder.flatMap fun c => (s.segment c).parts := by
  simp [parts, Clause.inOrder, Clause.beforeConditions, Clause.afterConditions, segment,
    Segment.parts]

theorem mem_parts_of_segment {s : Select ε} {c : Clause} {e : ε} (h : e ∈ (s.segment c).parts) :
    e ∈ s.parts := by
  rw [parts_eq_flatMap]
  exact List.mem_flatMap.2 ⟨c, by cases c <;> decide, h⟩

theorem map_map (f : ε → δ) (g : δ → γ) (s : Select ε) : (s.map f).map g = s.map (g ∘ f) := by
  simp [map, Function.comp_def]

theorem map_congr {f g : ε → δ} {s : Select ε} (h : ∀ e ∈ s.parts, f e = g e) :
    s.map f = s.map g := by
  obtain ⟨hc, ht, hj, hp, hg, hh, ho, hl⟩ := forall_parts.1 h
  simp only [map, List.map_congr_left hc, List.map_congr_left ht, List.map_congr_left hj,
    Option.map_congr hp, List.map_congr_left hg, Option.map_congr hh, List.map_congr_left ho,
    Option.map_congr hl]

end Select

namespace Insert

def parts (s : Insert ε) : List ε := s.table :: (s.columns ++ s.values.flatten ++ s.returning)

theorem forall_parts {p : ε → Prop} {s : Insert ε} :
    (∀ e ∈ s.parts, p e) ↔
      p s.table ∧ (∀ e ∈ s.columns, p e) ∧ (∀ r ∈ s.values, ∀ e ∈ r, p e) ∧
      ∀ e ∈ s.returning, p e := by
  simp only [parts, List.forall_mem_cons, List.mem_append, List.mem_flatten, or_imp, forall_and,
    and_assoc, forall_exists_index, and_imp]
  grind

theorem parts_map (f : ε → δ) (s : Insert ε) : (s.map f).parts = s.parts.map f := by
  simp [parts, map, List.map_flatten]

theorem map_map (f : ε → δ) (g : δ → γ) (s : Insert ε) : (s.map f).map g = s.map (g ∘ f) := by
  simp [map, Function.comp_def]

theorem map_congr {f g : ε → δ} {s : Insert ε} (h : ∀ e ∈ s.parts, f e = g e) :
    s.map f = s.map g := by
  obtain ⟨ht, hc, hv, hr⟩ := forall_parts.1 h
  simp only [map, ht, List.map_congr_left hc, List.map_congr_left hr,
    List.map_congr_left fun r hr => List.map_congr_left (hv r hr)]

end Insert

namespace Update

def parts (s : Update ε) : List ε :=
  s.table :: (s.values ++ s.predicate.toList ++ s.returning)

theorem forall_parts {p : ε → Prop} {s : Update ε} :
    (∀ e ∈ s.parts, p e) ↔
      p s.table ∧ (∀ e ∈ s.values, p e) ∧ (∀ e ∈ s.predicate, p e) ∧ ∀ e ∈ s.returning, p e := by
  simp only [parts, List.forall_mem_cons, List.mem_append, Option.mem_toList, Option.mem_def,
    or_imp, forall_and, and_assoc]

theorem parts_map (f : ε → δ) (s : Update ε) : (s.map f).parts = s.parts.map f := by
  simp [parts, map, Option.toList_map]

theorem map_map (f : ε → δ) (g : δ → γ) (s : Update ε) : (s.map f).map g = s.map (g ∘ f) := by
  simp [map, Function.comp_def]

theorem map_congr {f g : ε → δ} {s : Update ε} (h : ∀ e ∈ s.parts, f e = g e) :
    s.map f = s.map g := by
  obtain ⟨ht, hv, hp, hr⟩ := forall_parts.1 h
  simp only [map, ht, List.map_congr_left hv, Option.map_congr hp, List.map_congr_left hr]

end Update

namespace Delete

def parts (s : Delete ε) : List ε := s.table :: (s.predicate.toList ++ s.returning)

theorem forall_parts {p : ε → Prop} {s : Delete ε} :
    (∀ e ∈ s.parts, p e) ↔ p s.table ∧ (∀ e ∈ s.predicate, p e) ∧ ∀ e ∈ s.returning, p e := by
  simp only [parts, List.forall_mem_cons, List.mem_append, Option.mem_toList, Option.mem_def,
    or_imp, forall_and]

theorem parts_map (f : ε → δ) (s : Delete ε) : (s.map f).parts = s.parts.map f := by
  simp [parts, map, Option.toList_map]

theorem map_map (f : ε → δ) (g : δ → γ) (s : Delete ε) : (s.map f).map g = s.map (g ∘ f) := by
  simp [map, Function.comp_def]

theorem map_congr {f g : ε → δ} {s : Delete ε} (h : ∀ e ∈ s.parts, f e = g e) :
    s.map f = s.map g := by
  obtain ⟨ht, hp, hr⟩ := forall_parts.1 h
  simp only [map, ht, Option.map_congr hp, List.map_congr_left hr]

end Delete

namespace Expr

variable {ν α β : Type}

/-- The trees directly below a node, in the order of the grammar. -/
def children : Expr ν → List (Expr ν)
  | aliased e _ | group e | order e _ | spaced e => [e]
  | list items separator => items ++ [separator]
  | binary left _ right => [left, right]
  | function _ args => args
  | join _ table condition => table :: condition.toList
  | select s => s.parts
  | insert s => s.parts
  | update s => s.parts
  | delete s => s.parts
  | _ => []

/-- A property holds of all trees if each tree has it as soon as the trees directly below have. -/
theorem induction {motive : Expr ν → Prop}
    (step : ∀ e, (∀ c ∈ e.children, motive c) → motive e) (e : Expr ν) : motive e := by
  refine @Expr.rec ν motive (fun es => ∀ c ∈ es, motive c) (fun o => ∀ c ∈ o, motive c)
    (fun s => ∀ c ∈ s.parts, motive c) (fun s => ∀ c ∈ s.parts, motive c)
    (fun s => ∀ c ∈ s.parts, motive c) (fun s => ∀ c ∈ s.parts, motive c)
    (fun rs => ∀ r ∈ rs, ∀ c ∈ r, motive c)
    ?raw ?identifier ?column ?aliased ?literal ?bind ?binds ?list ?group ?binary ?operator
    ?function ?join ?order ?lock ?spaced ?select ?insert ?update ?delete ?own
    ?nil ?cons ?none ?some ?selectParts ?insertParts ?updateParts ?deleteParts ?noRows ?rows e
  case aliased | group | order | spaced => intros; exact step _ (by simpa [children])
  case list => intro items separator hi hs; exact step _ (by simp [children]; grind)
  case binary => intro left op right hl hr; exact step _ (by simp [children, hl, hr])
  case function => intro name args ih; exact step _ ih
  case join => intro method table condition ht hc; exact step _ (by simp [children]; grind)
  case select | insert | update | delete => intro s ih; exact step _ ih
  case nil | none | noRows => simp
  case cons => intro e es he hes; exact List.forall_mem_cons.2 ⟨he, hes⟩
  case some => intro e he; simpa using he
  case rows => intro r rs hr hrs; exact List.forall_mem_cons.2 ⟨hr, hrs⟩
  case selectParts =>
    intro _ _ _ _ _ _ _ _ _ _ _ hc ht hj hp hg hh ho hl
    exact Select.forall_parts.2 ⟨hc, ht, hj, hp, hg, hh, ho, hl⟩
  case insertParts => intro _ _ _ _ ht hc hv hr; exact Insert.forall_parts.2 ⟨ht, hc, hv, hr⟩
  case updateParts => intro _ _ _ _ ht hv hp hr; exact Update.forall_parts.2 ⟨ht, hv, hp, hr⟩
  case deleteParts => intro _ _ _ ht hp hr; exact Delete.forall_parts.2 ⟨ht, hp, hr⟩
  all_goals intros; exact step _ (by simp [children])

/-- What is made of each node, given what has been made of the trees directly below it. -/
structure Algebra (ν α : Type) where
  raw : String → α
  identifier : String → α
  column : Option String → String → α
  aliased : α → String → α
  literal : Literal → α
  bind : Value → α
  binds : List Value → α
  list : List α → α → α
  group : α → α
  binary : α → Operator → α → α
  operator : Operator → α
  function : String → List α → α
  join : JoinMethod → α → Option α → α
  order : α → Direction → α
  lock : LockMode → α
  spaced : α → α
  select : Select α → α
  insert : Insert α → α
  update : Update α → α
  delete : Delete α → α
  own : ν → α

variable (a : Algebra ν α)

mutual

/-- What an algebra makes of a whole tree. -/
def fold : Expr ν → α
  | raw sql => a.raw sql
  | identifier name => a.identifier name
  | column table name => a.column table name
  | aliased expr name => a.aliased expr.fold name
  | literal l => a.literal l
  | bind value => a.bind value
  | binds values => a.binds values
  | list items separator => a.list (foldList items) separator.fold
  | group expr => a.group expr.fold
  | binary left op right => a.binary left.fold op right.fold
  | operator op => a.operator op
  | function name args => a.function name (foldList args)
  | join method table condition => a.join method table.fold (foldOption condition)
  | order expr direction => a.order expr.fold direction
  | lock mode => a.lock mode
  | spaced expr => a.spaced expr.fold
  | select s => a.select (foldSelect s)
  | insert s => a.insert (foldInsert s)
  | update s => a.update (foldUpdate s)
  | delete s => a.delete (foldDelete s)
  | own node => a.own node
termination_by structural e => e

def foldList : List (Expr ν) → List α
  | [] => []
  | e :: es => e.fold :: foldList es
termination_by structural es => es

def foldRows : List (List (Expr ν)) → List (List α)
  | [] => []
  | r :: rs => foldList r :: foldRows rs
termination_by structural rs => rs

def foldOption : Option (Expr ν) → Option α
  | none => none
  | some e => some e.fold
termination_by structural o => o

def foldSelect : Select (Expr ν) → Select α
  | ⟨columns, tables, distinct, joins, predicate, groupBy, having, orderBy, limit, offset, locking⟩ =>
    ⟨foldList columns, foldList tables, distinct, foldList joins, foldOption predicate,
      foldList groupBy, foldOption having, foldList orderBy, limit, offset, foldOption locking⟩
termination_by structural s => s

def foldInsert : Insert (Expr ν) → Insert α
  | ⟨table, columns, values, returning⟩ =>
    ⟨table.fold, foldList columns, foldRows values, foldList returning⟩
termination_by structural s => s

def foldUpdate : Update (Expr ν) → Update α
  | ⟨table, values, predicate, returning⟩ =>
    ⟨table.fold, foldList values, foldOption predicate, foldList returning⟩
termination_by structural s => s

def foldDelete : Delete (Expr ν) → Delete α
  | ⟨table, predicate, returning⟩ => ⟨table.fold, foldOption predicate, foldList returning⟩
termination_by structural s => s

end

theorem foldList_eq_map (es : List (Expr ν)) : foldList a es = es.map (fold a) := by
  induction es with
  | nil => rfl
  | cons e es ih => simp [foldList, ih]

theorem foldRows_eq_map (rs : List (List (Expr ν))) :
    foldRows a rs = rs.map (List.map (fold a)) := by
  induction rs with
  | nil => rfl
  | cons r rs ih => simp [foldRows, foldList_eq_map, ih]

theorem foldOption_eq_map (o : Option (Expr ν)) : foldOption a o = o.map (fold a) := by
  cases o <;> rfl

@[simp] theorem fold_list (items : List (Expr ν)) (separator : Expr ν) :
    fold a (list items separator) = a.list (items.map (fold a)) (separator.fold a) := by
  rw [← foldList_eq_map]
  rfl

@[simp] theorem fold_function (name : String) (args : List (Expr ν)) :
    fold a (function name args) = a.function name (args.map (fold a)) := by
  rw [← foldList_eq_map]
  rfl

@[simp] theorem fold_join (method : JoinMethod) (table : Expr ν) (condition : Option (Expr ν)) :
    fold a (join method table condition) =
      a.join method (table.fold a) (condition.map (fold a)) := by
  rw [← foldOption_eq_map]
  rfl

@[simp] theorem fold_select (s : Select (Expr ν)) :
    fold a (select s) = a.select (s.map (fold a)) := by
  cases s
  simp only [Select.map, ← foldList_eq_map, ← foldOption_eq_map]
  rfl

@[simp] theorem fold_insert (s : Insert (Expr ν)) :
    fold a (insert s) = a.insert (s.map (fold a)) := by
  cases s
  simp only [Insert.map, ← foldList_eq_map, ← foldRows_eq_map]
  rfl

@[simp] theorem fold_update (s : Update (Expr ν)) :
    fold a (update s) = a.update (s.map (fold a)) := by
  cases s
  simp only [Update.map, ← foldList_eq_map, ← foldOption_eq_map]
  rfl

@[simp] theorem fold_delete (s : Delete (Expr ν)) :
    fold a (delete s) = a.delete (s.map (fold a)) := by
  cases s
  simp only [Delete.map, ← foldList_eq_map, ← foldOption_eq_map]
  rfl

/-- A map that takes what one algebra makes of each node to what another makes of it. -/
structure Algebra.Hom (a : Algebra ν α) (b : Algebra ν β) (h : α → β) : Prop where
  raw : ∀ s, h (a.raw s) = b.raw s := by intros; rfl
  identifier : ∀ n, h (a.identifier n) = b.identifier n := by intros; rfl
  column : ∀ t n, h (a.column t n) = b.column t n := by intros; rfl
  aliased : ∀ x n, h (a.aliased x n) = b.aliased (h x) n := by intros; rfl
  literal : ∀ l, h (a.literal l) = b.literal l := by intros; rfl
  bind : ∀ v, h (a.bind v) = b.bind v := by intros; rfl
  binds : ∀ vs, h (a.binds vs) = b.binds vs := by intros; rfl
  list : ∀ xs x, h (a.list xs x) = b.list (xs.map h) (h x) := by intros; rfl
  group : ∀ x, h (a.group x) = b.group (h x) := by intros; rfl
  binary : ∀ x op y, h (a.binary x op y) = b.binary (h x) op (h y) := by intros; rfl
  operator : ∀ op, h (a.operator op) = b.operator op := by intros; rfl
  function : ∀ n xs, h (a.function n xs) = b.function n (xs.map h) := by intros; rfl
  join : ∀ m x o, h (a.join m x o) = b.join m (h x) (o.map h) := by intros; rfl
  order : ∀ x d, h (a.order x d) = b.order (h x) d := by intros; rfl
  lock : ∀ m, h (a.lock m) = b.lock m := by intros; rfl
  spaced : ∀ x, h (a.spaced x) = b.spaced (h x) := by intros; rfl
  select : ∀ s, h (a.select s) = b.select (s.map h) := by intros; rfl
  insert : ∀ s, h (a.insert s) = b.insert (s.map h) := by intros; rfl
  update : ∀ s, h (a.update s) = b.update (s.map h) := by intros; rfl
  delete : ∀ s, h (a.delete s) = b.delete (s.map h) := by intros; rfl
  own : ∀ n, h (a.own n) = b.own n := by intros; rfl

/-- A map between two algebras takes one fold to the other. -/
theorem fold_fusion {a : Algebra ν α} {b : Algebra ν β} {h : α → β} (hom : a.Hom b h)
    (e : Expr ν) : h (e.fold a) = e.fold b := by
  induction e using induction with
  | step e ih =>
    cases e with
    | raw s => exact hom.raw s
    | identifier n => exact hom.identifier n
    | column t n => exact hom.column t n
    | literal l => exact hom.literal l
    | bind v => exact hom.bind v
    | binds vs => exact hom.binds vs
    | operator op => exact hom.operator op
    | lock m => exact hom.lock m
    | own n => exact hom.own n
    | aliased x n => simp [fold, hom.aliased, ih x (by simp [children])]
    | group x => simp [fold, hom.group, ih x (by simp [children])]
    | order x d => simp [fold, hom.order, ih x (by simp [children])]
    | spaced x => simp [fold, hom.spaced, ih x (by simp [children])]
    | binary x op y =>
      simp [fold, hom.binary, ih x (by simp [children]), ih y (by simp [children])]
    | list xs x =>
      have hx : ∀ e ∈ xs, h (e.fold a) = e.fold b := fun e he => ih e (by simp [children, he])
      rw [fold_list, fold_list, hom.list, List.map_map, ih x (by simp [children])]
      exact congrArg (b.list · _) (List.map_congr_left hx)
    | function n xs =>
      rw [fold_function, fold_function, hom.function, List.map_map]
      exact congrArg (b.function n) (List.map_congr_left ih)
    | join m x o =>
      have ho : ∀ e ∈ o, h (e.fold a) = e.fold b :=
        fun e he => ih e (by simp [children, Option.mem_def.1 he])
      rw [fold_join, fold_join, hom.join, Option.map_map, ih x (by simp [children])]
      exact congrArg (b.join m _) (Option.map_congr ho)
    | select s =>
      rw [fold_select, fold_select, hom.select, Select.map_map]
      exact congrArg b.select (Select.map_congr ih)
    | insert s =>
      rw [fold_insert, fold_insert, hom.insert, Insert.map_map]
      exact congrArg b.insert (Insert.map_congr ih)
    | update s =>
      rw [fold_update, fold_update, hom.update, Update.map_map]
      exact congrArg b.update (Update.map_congr ih)
    | delete s =>
      rw [fold_delete, fold_delete, hom.delete, Delete.map_map]
      exact congrArg b.delete (Delete.map_congr ih)

/-- The algebra that makes of each node the node itself. -/
def rebuild : Algebra ν (Expr ν) :=
  ⟨raw, identifier, column, aliased, literal, bind, binds, list, group, binary, operator, function,
    join, order, lock, spaced, select, insert, update, delete, own⟩

end Expr

end BoundSql
