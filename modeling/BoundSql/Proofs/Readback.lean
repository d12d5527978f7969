import BoundSql.Proofs.Lexeme
import BoundSql.Proofs.Outline

/-! Reading the outline of a query back from its text and values. Names are read as quoted tokens, so
no name can be taken for a point, a comma or a keyword; operators end at the placeholder; and each
clause ends where the keyword of a later one starts. -/

namespace BoundSql

/-- Names stand between quotes, and a placeholder is a sign and perhaps its number. -/
structure Dialect.Legible (d : Dialect) : Prop where
  doubling : d.Doubling
  quote : isQuote d.quote = true
  placeholder : ∀ n, ∃ mark digits, (d.placeholder n).toList = mark :: digits ∧
    (mark = '?' ∨ mark = '$') ∧ ∀ c ∈ digits, c.isDigit = true

theorem Dialect.legible_of_shipped {d : Dialect} (h : d ∈ shipped) : d.Legible := by
  refine ⟨doubling_of_shipped h, (plain_of_shipped h).quote, fun n => ?_⟩
  simp only [shipped, List.mem_cons, List.not_mem_nil, or_false] at h
  have hquestion : "?".toList = ['?'] := by decide
  have hnone : ∀ c ∈ ([] : List Char), c.isDigit = true := by simp
  rcases h with rfl | rfl | rfl | rfl
  · exact ⟨'?', [], hquestion, .inl rfl, hnone⟩
  · refine ⟨'$', Nat.toDigits 10 n, ?_, .inr rfl, Reader.isDigit_of_mem_toDigits⟩
    show ("$" ++ toString n).toList = _
    rw [String.toList_append, Nat.toString_eq_ofList_toDigits, String.toList_ofList,
      String.toList_ofList]
    rfl
  · exact ⟨'?', [], hquestion, .inl rfl, hnone⟩
  · exact ⟨'?', [], hquestion, .inl rfl, hnone⟩

def Operator.all : List Operator :=
  [.equal, .notEqual, .greater, .greaterOrEqual, .less, .lessOrEqual, .like, .notLike, .among,
    .notAmong, .is, .isNot, .and, .or, .add, .subtract, .multiply, .divide, .modulo, .concatenate]

namespace Reader

/-- Reads a column name, or the star that stands for all columns. -/
def name (quote : Char) : Reader String
  | '*' :: r => some ("*", r)
  | cs => Quoted.read quote cs

def path (quote : Char) : Reader String := fun cs => do
  let (t, r) ← name quote cs
  match r with
  | '.' :: r =>
    let (n, r) ← name quote r
    return (t ++ "." ++ n, r)
  | _ => return (t, r)

def ordering (quote : Char) : Reader (String × Direction) := fun cs => do
  let (p, r) ← path quote cs
  match skip " ASC" r with
  | some r => return ((p, .ascending), r)
  | none =>
    let r ← skip " DESC" r
    return ((p, .descending), r)

def isMark (c : Char) : Bool := c = '?' || c = '$'

/-- Reads a comparison without its value. -/
def comparison (quote : Char) : Reader (String × Operator) := fun cs => do
  let (p, r) ← path quote cs
  let r ← skip " " r
  let word := r.takeWhile (!isMark ·)
  let op ← Operator.all.find? fun op => op.text.toList ++ " ".toList = word
  return ((p, op), ((r.dropWhile (!isMark ·)).drop 1).dropWhile Char.isDigit)

def connective : Reader Connective := fun cs =>
  match skip " AND " cs with
  | some r => some (.and, r)
  | none => (skip " OR " cs).map fun r => (.or, r)

def connected (quote : Char) : Reader (Connective × (String × Operator)) := fun cs => do
  let (c, r) ← connective cs
  let (k, r) ← comparison quote r
  return ((c, k), r)

def chain (quote : Char) :
    Reader ((String × Operator) × List (Connective × (String × Operator))) := fun cs => do
  let (k, r) ← comparison quote cs
  let (rest, t) := many (connected quote) r
  return ((k, rest), t)

end Reader

/-- Gives the comparisons of a chain their values. -/
def Chain.fill : Option ((String × Operator) × List (Connective × (String × Operator))) →
    List Value → Option (Option Chain)
  | none, [] => some none
  | some ((p, op), rest), v :: vs =>
    some (some ⟨⟨p, op, v⟩, rest.zipWith (fun (c, p, op) v => (c, ⟨p, op, v⟩)) vs⟩)
  | _, _ => none

/-- Reads the outline of a query in a dialect. -/
def Outline.read (d : Dialect) (q : Query) : Option Outline := do
  let r ← Reader.skip "SELECT " q.sql.toList
  let (distinct, r) := Reader.flag "DISTINCT " r
  let (columns, r) := (Reader.commaSeparated (Reader.path d.quote) r).getD ([], r)
  let (tables, r) ← Reader.clause " FROM " (Quoted.read d.quote) r
  let (conditions, r) ← Reader.option " WHERE " (Reader.chain d.quote) r
  let (groups, r) ← Reader.clause " GROUP BY " (Reader.path d.quote) r
  let (orderings, r) ← Reader.clause " ORDER BY " (Reader.ordering d.quote) r
  let (limit, r) ← Reader.option " LIMIT " Reader.number r
  let (offset, r) ← Reader.option " OFFSET " Reader.number r
  let conditions ← Chain.fill conditions q.binds
  if r = [] then
    return { columns, distinct, tables, conditions, groups, orderings, limit, offset }
  else none

namespace Reader

variable {quote : Char} {r : List Char}

theorem ne_of_isQuote {c : Char} (hq : isQuote quote = true) (hc : isQuote c = false) :
    c ≠ quote := by
  rintro rfl
  simp_all

theorem Ends.ne_quote (h : Ends r) (hq : isQuote quote = true) : ∀ c ∈ r.head?, c ≠ quote := by
  intro c hc
  rcases h c hc with rfl | rfl <;> exact ne_of_isQuote hq (by decide)

theorem name_of_ne {c : Char} (hc : c ≠ '*') (r : List Char) :
    name quote (c :: r) = Quoted.read quote (c :: r) := by
  unfold name
  split
  · rename_i h
    cases h
    exact absurd rfl hc
  · rfl

theorem name_token (hq : isQuote quote = true) (h : ∀ c ∈ r.head?, c ≠ quote) (s : String) :
    name quote ((Quoted.token quote s).toList ++ r) = some (s, r) := by
  have hread := Quoted.read_token h s
  rw [Quoted.toList_token, List.cons_append] at hread ⊢
  rw [name_of_ne (ne_of_isQuote hq (by decide)).symm, hread]

theorem name_nameText (hq : isQuote quote = true) (h : ∀ c ∈ r.head?, c ≠ quote) (n : String) :
    name quote (nameText (Quoted.token quote) n ++ r) = some (n, r) := by
  unfold nameText
  split
  · subst n; rfl
  · exact name_token hq h n

end Reader

theorem Split.eq_of_first? {s t n : String} (h : first? '.' s = some (t, n)) : t ++ "." ++ n = s := by
  obtain ⟨hs, -⟩ := first?_eq_some_iff.1 h
  apply String.toList_inj.1
  rw [hs, String.toList_append, String.toList_append, List.append_assoc]
  rfl

namespace Reader

variable {quote : Char} {r : List Char}

/-- A path is read back: the point between table and name is never a point of a name. -/
theorem path_inverts (hq : isQuote quote = true) :
    (path quote).Inverts (pathText (Quoted.token quote)) id := by
  intro p r hr
  unfold path pathText
  cases hp : Split.first? '.' p with
  | none =>
    simp only [name_nameText hq (hr.ne_quote hq), Option.bind_eq_bind, Option.bind_some]
    cases r with
    | nil => rfl
    | cons c r => rcases hr c rfl with rfl | rfl <;> rfl
  | some tn =>
    obtain ⟨t, n⟩ := tn
    have ht := name_token (r := '.' :: (nameText (Quoted.token quote) n ++ r)) hq
      (fun c hc => by cases hc; exact ne_of_isQuote hq (by decide)) t
    simp only [List.append_assoc, List.cons_append, ht, name_nameText hq (hr.ne_quote hq),
      Option.bind_eq_bind, Option.bind_some, Split.eq_of_first? hp]
    rfl

theorem path_eq_none (hq : isQuote quote = true) (hr : Ends r) : path quote r = none := by
  cases r with
  | nil => rfl
  | cons c r =>
    have hc := hr.ne_quote hq c rfl
    have hs : c ≠ '*' := by rcases hr c rfl with rfl | rfl <;> decide
    unfold path
    rw [name_of_ne hs, Quoted.read, if_neg hc]
    rfl

theorem ordering_inverts (hq : isQuote quote = true) :
    (ordering quote).Inverts (orderingText (Quoted.token quote)) id := by
  rintro ⟨p, direction⟩ r hr
  have hasc : skip " ASC" (" ".toList ++ ("ASC".toList ++ r)) = some r := skip_append " ASC" r
  have hdesc : skip " DESC" (" ".toList ++ ("DESC".toList ++ r)) = some r := skip_append " DESC" r
  have hnot : skip " ASC" (" ".toList ++ ("DESC".toList ++ r)) = none :=
    skip_eq_none (.inr ⟨" DESC", .head [], List.prefix_append " DESC".toList r⟩) (by decide)
  unfold ordering orderingText
  simp only [List.append_assoc, path_inverts hq p _ (ends_space _), Option.bind_eq_bind,
    Option.bind_some]
  cases direction
  · simp only [Direction.text, hasc]
    rfl
  · simp only [Direction.text, hnot, hdesc]
    rfl

theorem find?_operator (op : Operator) :
    Operator.all.find? (fun o => o.text.toList ++ " ".toList = op.text.toList ++ " ".toList) =
      some op := by
  cases op <;> decide

theorem not_isMark_operator (op : Operator) :
    ∀ c ∈ op.text.toList ++ " ".toList, (!isMark c) = true := by
  have h : (op.text.toList ++ " ".toList).all (!isMark ·) = true := by cases op <;> rfl
  exact List.all_eq_true.1 h

variable {d : Dialect}

/-- A comparison is read back without its value: the operator ends where the placeholder starts. -/
theorem comparison_inverts (hd : d.Legible) :
    (comparison d.quote).Inverts (fun (i : Comparison × Nat) => i.1.text d i.2)
      fun i => (i.1.path, i.1.op) := by
  rintro ⟨k, n⟩ r hr
  obtain ⟨mark, digits, hp, hm, hdigits⟩ := hd.placeholder n
  have hmark : ∀ c ∈ (mark :: (digits ++ r)).head?, (!isMark c) = false := by
    intro c hc
    cases hc
    rcases hm with rfl | rfl <;> rfl
  have hop := not_isMark_operator k.op
  have ht := takeWhile_append_of_head hop hmark
  have hdrop := dropWhile_append_of_head hop hmark
  have hrest := dropWhile_append_of_head hdigits hr.not_isDigit
  simp only [List.append_assoc] at ht hdrop
  simp only [Comparison.text, hd.doubling, hp, List.append_assoc, List.cons_append, comparison,
    path_inverts hd.quote k.path _ (ends_space _), skip_append, ht, hdrop, hrest, find?_operator,
    Option.bind_eq_bind, Option.bind_some, List.drop_succ_cons, List.drop_zero, id, Option.pure_def]

theorem connective_append (c : Connective) (s : List Char) :
    connective (" ".toList ++ (c.operator.text.toList ++ (" ".toList ++ s))) = some (c, s) := by
  have hand : skip " AND " (" ".toList ++ ("AND".toList ++ (" ".toList ++ s))) = some s :=
    skip_append " AND " s
  have hor : skip " OR " (" ".toList ++ ("OR".toList ++ (" ".toList ++ s))) = some s :=
    skip_append " OR " s
  have hnot : skip " AND " (" ".toList ++ ("OR".toList ++ (" ".toList ++ s))) = none :=
    skip_eq_none (.inr ⟨" OR ", .head [], List.prefix_append " OR ".toList s⟩) (by decide)
  cases c
  · simp only [Connective.operator, Operator.text, connective, hand]
  · simp only [Connective.operator, Operator.text, connective, hnot, hor, Option.map_some]

theorem connected_inverts (hd : d.Legible) :
    (connected d.quote).Inverts (Comparison.restText d)
      fun i => (i.1.1, (i.1.2.path, i.1.2.op)) := by
  rintro ⟨⟨c, k⟩, n⟩ r hr
  have hk := comparison_inverts hd (k, n) r hr
  simp only [Comparison.restText, List.append_assoc, connected, connective_append, hk,
    Option.bind_eq_bind, Option.bind_some, Option.pure_def]

theorem connected_eq_none {keywords : List String} (hr : Begins keywords r)
    (hand : Apart " AND " keywords) (hor : Apart " OR " keywords) : connected quote r = none := by
  rw [connected, connective, skip_eq_none hr hand, skip_eq_none hr hor]
  rfl

end Reader

/-- What the text of a chain says, without its values. -/
def Chain.shape (c : Chain) : (String × Operator) × List (Connective × (String × Operator)) :=
  ((c.first.path, c.first.op), c.rest.map fun (c, k) => (c, (k.path, k.op)))

theorem Chain.fill_shape (o : Option Chain) :
    fill (o.map shape) ((o.map values).getD []) = some o := by
  cases o with
  | none => rfl
  | some c =>
    have hrest : (c.rest.map fun (c, k) => (c, (k.path, k.op))).zipWith
        (fun (c, p, op) v => (c, (⟨p, op, v⟩ : Comparison))) (c.rest.map fun (_, k) => k.value) =
        c.rest := by
      rw [List.zipWith_map, List.zipWith_self]
      exact List.map_id _
    simp only [Option.map_some, Option.getD_some, shape, values, fill, hrest]

namespace Reader

theorem chain_text {d : Dialect} (hd : d.Legible) {keywords : List String} {r : List Char}
    (hr : Begins keywords r) (hand : Apart " AND " keywords) (hor : Apart " OR " keywords)
    (c : Chain) : chain d.quote (c.text d ++ r) = some (c.shape, r) := by
  have hends := ends_of_begins hr hand
  have hspace (i : (Connective × Comparison) × Nat) (r : List Char) :
      Ends (Comparison.restText d i ++ r) := by
    simp only [Comparison.restText, List.append_assoc]
    exact ends_space _
  have hrest := many_flatMap (connected_inverts hd) (fun i => by simp [Comparison.restText]) hspace
    hends (connected_eq_none hr hand hor) (c.rest.zipIdx 2)
  have hfirst := comparison_inverts hd (c.first, 1) _
    (ends_flatMap hspace hends (c.rest.zipIdx 2))
  have hmap : (c.rest.zipIdx 2).map (fun i => (i.1.1, (i.1.2.path, i.1.2.op))) =
      c.rest.map fun (c, k) => (c, (k.path, k.op)) := by
    conv_rhs => rw [← List.zipIdx_map_fst 2 c.rest, List.map_map]
    rfl
  simp only [Chain.text, List.append_assoc, chain, hfirst, hrest, hmap, Option.bind_eq_bind,
    Option.bind_some, Option.pure_def, Chain.shape]

theorem skip_cons_eq_none {s : String} (hs : s ≠ "") {c : Char} (h : s.toList.head? ≠ some c)
    (r : List Char) : skip s (c :: r) = none := by
  refine if_neg fun hp => ?_
  cases hl : s.toList with
  | nil => exact hs (String.toList_eq_nil_iff.1 hl)
  | cons a l =>
    rw [hl] at h hp
    exact h (congrArg some (List.cons_prefix_cons.1 hp).1)

theorem pathText_eq_cons (quote : Char) (p : String) :
    ∃ c s, pathText (Quoted.token quote) p = c :: s ∧ (c = quote ∨ c = '*') := by
  have hname (n : String) :
      ∃ c s, nameText (Quoted.token quote) n = c :: s ∧ (c = quote ∨ c = '*') := by
    unfold nameText
    split
    · exact ⟨_, _, rfl, .inr rfl⟩
    · exact ⟨_, _, Quoted.toList_token _ _, .inl rfl⟩
  unfold pathText
  split
  · exact ⟨quote, _, by rw [Quoted.toList_token, List.cons_append], .inl rfl⟩
  · exact hname p

variable {quote : Char} {keywords : List String} {r : List Char}

/-- The columns are read back, also if there are none. -/
theorem columns_commas (hq : isQuote quote = true) (hr : Begins keywords r)
    (hc : Apart ", " keywords) (ps : List String) :
    (commaSeparated (path quote) (commas (ps.map (pathText (Quoted.token quote))) ++ r)).getD
      ([], commas (ps.map (pathText (Quoted.token quote))) ++ r) = (ps, r) := by
  cases ps with
  | nil =>
    show (commaSeparated (path quote) r).getD ([], r) = ([], r)
    rw [commaSeparated, path_eq_none hq (ends_of_begins hr hc)]
    rfl
  | cons p ps =>
    rw [commaSeparated_commas (path_inverts hq) hr hc, List.map_id, Option.getD_some]

theorem skip_distinct (hq : isQuote quote = true) (hr : Begins keywords r)
    (hd : Apart "DISTINCT " keywords) (ps : List String) :
    skip "DISTINCT " (commas (ps.map (pathText (Quoted.token quote))) ++ r) = none := by
  cases ps with
  | nil => exact skip_eq_none hr hd
  | cons p ps =>
    obtain ⟨c, s, hp, hc⟩ := pathText_eq_cons quote p
    rw [List.map_cons, commas_cons, hp, List.cons_append, List.cons_append]
    refine skip_cons_eq_none (by decide) (fun h => ?_) _
    have hD : c = 'D' := (Option.some.inj h).symm
    rcases hc with rfl | rfl
    · subst hD
      exact absurd hq (by decide)
    · exact absurd hD (by decide)

end Reader

namespace Outline

open Reader

theorem text_eq (d : Dialect) (o : Outline) : o.text d =
    "SELECT ".toList ++ ((if o.distinct then "DISTINCT ".toList else []) ++
      (commas (o.columns.map (pathText d.quoted)) ++
      (clauseText " FROM " (o.tables.map fun n => (d.quoted n).toList) ++
      (optionText " WHERE " (o.conditions.map (Chain.text d)) ++
      (clauseText " GROUP BY " (o.groups.map (pathText d.quoted)) ++
      (clauseText " ORDER BY " (o.orderings.map (orderingText d.quoted)) ++
      (optionText " LIMIT " (o.limit.map countText) ++
      (optionText " OFFSET " (o.offset.map countText) ++ [])))))))) := by
  unfold text opening closing
  generalize "SELECT ".toList = a, (if o.distinct then "DISTINCT ".toList else []) = b
  simp only [List.append_assoc, List.append_nil]

/-- Every outline is read back from the query that was built of it. -/
theorem read_query {d : Dialect} (hd : d.Legible) (o : Outline) :
    read d (Query.of d (.select o.select : Expr Empty)) = some o := by
  have hq := hd.quote
  have hcount (n : UInt64) {keywords : List String} {r : List Char} (hr : Begins keywords r)
      (hc : Apart ", " keywords) : number (countText n ++ r) = some (id n, r) :=
    number_inverts n r (ends_of_begins hr hc)
  -- what is left of the text after each clause, from the last to the first
  have bEnd : Begins [] [] := .inl rfl
  have bOffset := begins_optionText (s := " OFFSET ") bEnd (o.offset.map countText)
  have bLimit := begins_optionText (s := " LIMIT ") bOffset (o.limit.map countText)
  have bOrder := begins_clauseText (s := " ORDER BY ") bLimit
    (o.orderings.map (orderingText (Quoted.token d.quote)))
  have bGroup := begins_clauseText (s := " GROUP BY ") bOrder
    (o.groups.map (pathText (Quoted.token d.quote)))
  have bWhere := begins_optionText (s := " WHERE ") bGroup (o.conditions.map (Chain.text d))
  have bFrom := begins_clauseText (s := " FROM ") bWhere
    (o.tables.map fun n => (Quoted.token d.quote n).toList)
  have htoken : Inverts (Quoted.read d.quote) (fun n => (Quoted.token d.quote n).toList) id :=
    fun n r hr => Quoted.read_token (hr.ne_quote hq) n
  have rColumns := columns_commas hq bFrom (by decide) o.columns
  have rDistinct := skip_distinct hq bFrom (by decide) o.columns
  have rFrom := clause_clauseText htoken (s := " FROM ") bWhere (by decide) (by decide) o.tables
  have rWhere := option_optionText (s := " WHERE ") (chain_text hd bGroup (by decide) (by decide))
    bGroup (by decide) o.conditions
  have rGroup := clause_clauseText (path_inverts hq) (s := " GROUP BY ") bOrder (by decide)
    (by decide) o.groups
  have rOrder := clause_clauseText (ordering_inverts hq) (s := " ORDER BY ") bLimit (by decide)
    (by decide) o.orderings
  have rLimit := option_optionText (s := " LIMIT ") (fun n => hcount n bOffset (by decide)) bOffset
    (by decide) o.limit
  have rOffset := option_optionText (s := " OFFSET ") (fun n => hcount n bEnd (by decide)) bEnd
    (by decide) o.offset
  have hfill := Chain.fill_shape o.conditions
  rw [o.query_select, read, text_eq, hd.doubling, String.toList_ofList]
  refine Option.bind_eq_some_iff.2 ⟨_, skip_append _ _, ?_⟩
  rw [flag_append _ rDistinct]
  dsimp only
  rw [rColumns]
  refine Option.bind_eq_some_iff.2 ⟨_, rFrom, ?_⟩
  refine Option.bind_eq_some_iff.2 ⟨_, rWhere, ?_⟩
  refine Option.bind_eq_some_iff.2 ⟨_, rGroup, ?_⟩
  refine Option.bind_eq_some_iff.2 ⟨_, rOrder, ?_⟩
  refine Option.bind_eq_some_iff.2 ⟨_, rLimit, ?_⟩
  refine Option.bind_eq_some_iff.2 ⟨_, rOffset, ?_⟩
  refine Option.bind_eq_some_iff.2 ⟨_, hfill, ?_⟩
  simp only [List.map_id, Option.map_id, id, if_true, Option.pure_def]

/-- The outline of a query that plain calls built is read back from its text and values, so calls
that built the same query asked for the same in each clause. -/
theorem built_query_is_read_back {d : Dialect} (hd : d ∈ Dialect.shipped) :
    (∀ calls : List (SelectCall Empty), (∀ c ∈ calls, c.Plain) →
      read d (Query.of d (Expr.select (.build calls))) = some (.of calls)) ∧
    ∀ calls₁ calls₂ : List (SelectCall Empty),
      (∀ c ∈ calls₁, c.Plain) → (∀ c ∈ calls₂, c.Plain) →
      (Query.of d (Expr.select (.build calls₁))).sql =
        (Query.of d (Expr.select (.build calls₂))).sql →
      (Query.of d (Expr.select (.build calls₁))).binds =
        (Query.of d (Expr.select (.build calls₂))).binds →
      Outline.of calls₁ = .of calls₂ := by
  have decode (calls : List (SelectCall Empty)) (h : ∀ c ∈ calls, c.Plain) :
      read d (Query.of d (Expr.select (.build calls))) = some (.of calls) := by
    rw [Select.build_eq_select h]
    exact read_query (Dialect.legible_of_shipped hd) _
  refine ⟨decode, fun calls₁ calls₂ h₁ h₂ hsql hbinds => ?_⟩
  have hquery : Query.of d (Expr.select (.build calls₁)) =
      Query.of d (Expr.select (.build calls₂)) := by
    generalize Query.of d (Expr.select (.build calls₁)) = q₁ at hsql hbinds ⊢
    cases q₁
    simp_all only
  have := decode calls₁ h₁
  rw [hquery, decode calls₂ h₂] at this
  exact (Option.some.inj this).symm

/-- Names that look like clauses are read back as names. -/
theorem hostile_names_are_read_back :
    .mysql ∈ Dialect.shipped ∧
    read .mysql (Query.of .mysql (Expr.select (.build
      [.limit 7, .restrict ⟨.or, .column "*" .multiply .null⟩, .table " WHERE ", .column "a.\x60, ",
        .restrict ⟨.or, .column ".*" .isNot (.bool true)⟩]) : Expr Empty)) =
      some ⟨["a.\x60, "], false, [" WHERE "],
        some ⟨⟨"*", .multiply, .null⟩, [(.or, ⟨".*", .isNot, .bool true⟩)]⟩, [], [], some 7, none⟩ := by
  have hd : .mysql ∈ Dialect.shipped := by simp [Dialect.shipped]
  refine ⟨hd, (built_query_is_read_back hd).1 _ fun c hc => ?_⟩
  simp only [List.mem_cons, List.not_mem_nil, or_false] at hc
  rcases hc with rfl | rfl | rfl | rfl | rfl <;> trivial

end Outline

end BoundSql
