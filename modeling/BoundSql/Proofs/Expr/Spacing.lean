import BoundSql.Expr.Writer
import BoundSql.Proofs.Piece
import BoundSql.Proofs.Text.Spacing

/-! Spaces in a statement. If the texts, the names and the dialect bring no stray spaces with them,
single spaces stand between the parts of a statement, whichever of its clauses are there and
whether or not the dialect writes them. -/

namespace BoundSql

namespace Writer

/-- A writer adds a text of some kind to every query. -/
def Writes (p : List Char → Prop) (d : Dialect) (w : Writer) : Prop :=
  ∀ q, ∃ t, p t ∧ (w d q).sql.toList = q.sql.toList ++ t

variable {p r m : List Char → Prop} {d : Dialect} {v w : Writer} {ws : List Writer}

theorem writes_text {s : String} (h : p s.toList) : (text s).Writes p d :=
  fun _ => ⟨s.toList, h, String.toList_append⟩

theorem writes_dialectText {f : Dialect → String} (h : p (f d).toList) :
    (dialectText f).Writes p d := fun _ => ⟨(f d).toList, h, String.toList_append⟩

theorem writes_nothing : nothing.Writes Trailing d :=
  fun _ => ⟨[], trailing_nil, (List.append_nil _).symm⟩

theorem Writes.append (hv : v.Writes p d) (hw : w.Writes r d)
    (h : ∀ {a b}, p a → r b → m (a ++ b)) : (v ++ w).Writes m d := by
  intro q
  obtain ⟨a, ha, hv⟩ := hv q
  obtain ⟨b, hb, hw⟩ := hw (v d q)
  refine ⟨a ++ b, h ha hb, ?_⟩
  rw [append_apply, hw, hv, List.append_assoc]

theorem Writes.imp (hw : w.Writes p d) (h : ∀ {a}, p a → r a) : w.Writes r d := by
  intro q
  obtain ⟨a, ha, hw⟩ := hw q
  exact ⟨a, h ha, hw⟩

/-- A clean part and what may follow it. -/
theorem Writes.followed (hv : v.Writes Clean d) (hw : w.Writes Trailing d) :
    (v ++ w).Writes Clean d := hv.append hw fun ha hb => hb _ ha

theorem Writes.chained (hv : v.Writes Trailing d) (hw : w.Writes Trailing d) :
    (v ++ w).Writes Trailing d := hv.append hw .append

theorem Writes.opened {s : String} (hs : Opening s.toList) (hw : w.Writes Clean d) :
    (text s ++ w).Writes Clean d := (writes_text hs).append hw Opening.append

theorem Writes.spacedOut {s : String} (hs : SingleSpaced s.toList) (hw : w.Writes Clean d) :
    (text s ++ w).Writes Trailing d := (writes_text hs).append hw SingleSpaced.trailing

theorem trailing_text {s : String} (h : Clean s.toList) : (text s).Writes Trailing d :=
  writes_text h.trailing

theorem clean_joined {s : String} (hs : SingleSpaced s.toList) (hne : ws ≠ [])
    (h : ∀ w ∈ ws, w.Writes Clean d) : (joined (text s) ws).Writes Clean d := by
  induction ws with
  | nil => exact absurd rfl hne
  | cons w ws ih =>
    have hw := h w List.mem_cons_self
    cases ws with
    | nil => exact hw
    | cons v ws =>
      have hrest := ih (by simp) fun u hu => h u (List.mem_cons_of_mem w hu)
      rw [joined_cons_cons, append_assoc]
      exact hw.followed (hrest.spacedOut hs)

theorem clean_commaSeparated (hne : ws ≠ []) (h : ∀ w ∈ ws, w.Writes Clean d) :
    (commaSeparated ws).Writes Clean d := clean_joined (by decide) hne h

theorem Writes.parenthesized (hw : w.Writes Clean d) : (parenthesized w).Writes Clean d :=
  (hw.opened (by decide)).followed (trailing_text (by decide))

/-- There may be nothing between the parentheses. -/
theorem clean_arguments (h : ∀ w ∈ ws, w.Writes Clean d) :
    (Writer.parenthesized (commaSeparated ws)).Writes Clean d := by
  cases ws with
  | nil =>
    have hopen : (text "(").Writes Clean d := writes_text (by decide)
    exact hopen.followed (trailing_text (by decide))
  | cons w ws => exact (clean_commaSeparated (by simp) h).parenthesized

theorem trailing_optional {keyword : String} (hk : SingleSpaced keyword.toList) {o : Option Writer}
    (h : ∀ w ∈ o, w.Writes Clean d) : (optional keyword o).Writes Trailing d := by
  cases o with
  | none => exact writes_nothing
  | some w => exact (h w rfl).spacedOut hk

theorem trailing_clause {keyword : String} (hk : SingleSpaced keyword.toList)
    (h : ∀ w ∈ ws, w.Writes Clean d) : (clause keyword ws).Writes Trailing d := by
  cases ws with
  | nil => exact writes_nothing
  | cons w ws => exact (clean_commaSeparated (by simp) h).spacedOut hk

theorem trailing_returning (h : ∀ w ∈ ws, w.Writes Clean d) :
    (returning ws).Writes Trailing d := by
  intro q
  unfold returning onlyIf
  split
  · exact trailing_clause (by decide) h q
  · exact writes_nothing (d := d) q

/-- The space before a part with a text stays. -/
theorem Writes.spaced (hw : w.Writes Clean d) : (spaced w).Writes Trailing d := by
  intro q
  obtain ⟨t, ht, hq⟩ := hw (q.write " ")
  have hsql : (w d (q.write " ")).sql = q.sql ++ (" " ++ String.ofList t) := by
    apply String.toList_injective
    rw [hq, ← String.append_assoc, String.toList_append, String.toList_ofList, Query.sql_write]
  have hne : String.ofList t ≠ "" := fun h =>
    ht.nonempty (by simpa using congrArg String.toList h)
  refine ⟨' ' :: t, SingleSpaced.trailing (k := [' ']) (.singleton _) ht, ?_⟩
  rw [spaced_eq hsql, if_neg hne]
  simp only [String.toList_append, String.toList_ofList]
  rfl

theorem trailing_spaced_of_silent (h : ∀ q, w d q = q) : (spaced w).Writes Trailing d := by
  intro q
  rw [spaced_of_silent h]
  exact writes_nothing (d := d) q

end Writer

section Statements

open Writer

variable {d : Dialect}

/-- A word that ends with a space may stand before a clean part or not. -/
theorem Segment.clean_flag {word : String} (hs : Opening word.toList) (present : Bool) {w : Writer}
    (hw : w.Writes Clean d) : ((flag word present).writer ++ w).Writes Clean d := by
  cases present
  · exact hw
  · exact hw.opened hs

/-- A segment that brings a space of its own with it. -/
theorem Segment.trailing_writer {g : Segment Writer} (hw : ∀ w ∈ g.words, SingleSpaced w.toList)
    (hf : ∀ w p, g ≠ .flag w p) (hi : ∀ ws, g ≠ .items ws)
    (h : ∀ w ∈ g.parts, w.Writes Clean d) : g.writer.Writes Trailing d := by
  cases g with
  | flag word present => exact absurd rfl (hf word present)
  | items ws => exact absurd rfl (hi ws)
  | clause keyword ws => exact trailing_clause (hw keyword (.head _)) h
  | joins ws =>
    cases ws with
    | nil => exact writes_nothing
    | cons w ws => exact (clean_joined (by decide) (List.cons_ne_nil w ws) h).spacedOut (by decide)
  | optional keyword o =>
    exact trailing_optional (hw keyword (.head _)) fun w hw => h w (Option.mem_toList.2 hw)
  | count keyword n =>
    refine trailing_optional (hw keyword (.head _)) fun w hw => ?_
    obtain ⟨m, -, rfl⟩ := Option.map_eq_some_iff.1 hw
    exact writes_text (clean_toString m.toNat)
  | locking o =>
    cases o with
    | none => exact writes_nothing
    | some w => exact (h w (.head _)).spaced

namespace Select

theorem singleSpaced_words {ε : Type} (s : Select ε) (c : Clause) :
    ∀ w ∈ (s.segment c).words, SingleSpaced w.toList := by
  cases c <;> simp only [segment, Segment.words] <;> decide

theorem trailing_clausesWriter {s : Select Writer}
    (h : ∀ w ∈ { s with locking := none }.parts, w.Writes Clean d)
    (hlocking : (s.segment .locking).writer.Writes Trailing d) (cs : List Clause)
    (hdistinct : .distinct ∉ cs) (hcolumns : .columns ∉ cs) :
    (s.clausesWriter cs).Writes Trailing d := by
  induction cs with
  | nil => exact writes_nothing
  | cons c cs ih =>
    rw [List.mem_cons, not_or] at hdistinct hcolumns
    have hc : (s.segment c).writer.Writes Trailing d := by
      by_cases hl : c = .locking
      · exact hl ▸ hlocking
      · have hs : ({ s with locking := none } : Select Writer).segment c = s.segment c := by
          cases c <;> first | rfl | exact absurd rfl hl
        refine Segment.trailing_writer (s.singleSpaced_words c) ?_ ?_ fun w hw =>
          h w (mem_parts_of_segment (c := c) (hs ▸ hw))
        · cases c <;> first | exact absurd rfl hdistinct.1 | exact nofun
        · cases c <;> first | exact absurd rfl hcolumns.1 | exact nofun
    exact hc.chained (ih hdistinct.2 hcolumns.2)

theorem clean_writer {s : Select Writer} (hne : s.columns ≠ [])
    (h : ∀ w ∈ { s with locking := none }.parts, w.Writes Clean d)
    (hlocking : (s.segment .locking).writer.Writes Trailing d) : s.writer.Writes Clean d := by
  have hcolumns : (s.segment .columns).writer.Writes Clean d :=
    clean_commaSeparated hne (forall_parts.1 h).1
  have hopening := hcolumns.followed
    (trailing_clausesWriter h hlocking (Clause.inOrder.drop 2) (by decide) (by decide))
  exact (Segment.clean_flag (by decide) s.distinct hopening).opened (by decide)

end Select

theorem Insert.clean_writer {s : Insert Writer} (h : ∀ w ∈ s.parts, w.Writes Clean d) :
    s.writer.Writes Clean d := by
  obtain ⟨ht, hc, hv, hr⟩ := forall_parts.1 h
  have hcolumns : (columnsWriter s.columns).Writes Trailing d := by
    cases hs : s.columns with
    | nil => exact writes_nothing
    | cons w ws => exact (clean_arguments (hs ▸ hc)).spacedOut (by decide)
  have hrows : ∀ w ∈ s.values.map rowWriter, w.Writes Clean d := by
    intro w hw
    obtain ⟨row, hrow, rfl⟩ := List.mem_map.1 hw
    exact clean_arguments (hv row hrow)
  exact (ht.opened (by decide)).followed hcolumns
    |>.followed (trailing_clause (by decide) hrows)
    |>.followed (trailing_returning hr)

theorem Update.clean_writer {s : Update Writer} (hne : s.values ≠ [])
    (h : ∀ w ∈ s.parts, w.Writes Clean d) : s.writer.Writes Clean d := by
  obtain ⟨ht, hv, hp, hr⟩ := forall_parts.1 h
  have hrest : (Writer.optional " WHERE " s.predicate ++
      .returning s.returning).Writes Trailing d :=
    (trailing_optional (by decide) hp).chained (trailing_returning hr)
  have hset := ((clean_commaSeparated hne hv).followed hrest).spacedOut (s := " SET ") (by decide)
  simp only [writer, append_assoc]
  exact (ht.followed hset).opened (by decide)

theorem Delete.clean_writer {s : Delete Writer} (h : ∀ w ∈ s.parts, w.Writes Clean d) :
    s.writer.Writes Clean d := by
  obtain ⟨ht, hp, hr⟩ := forall_parts.1 h
  exact (ht.opened (by decide)).followed (trailing_optional (by decide) hp)
    |>.followed (trailing_returning hr)

end Statements

/-- The texts of a dialect bring no stray spaces with them. -/
structure Dialect.Tidy (d : Dialect) : Prop where
  doubling : d.Doubling
  quote : d.quote ≠ ' '
  placeholder : ∀ n, Clean (d.placeholder (n + 1)).toList
  boolean : ∀ b, Clean (d.boolText b).toList
  default : Clean d.defaultText.toList
  lock : ∀ mode, ∀ t ∈ d.lockText mode, Clean t.toList

theorem Dialect.tidy_of_shipped {d : Dialect} (h : d ∈ Dialect.shipped) : d.Tidy := by
  have hnumbered (n : Nat) : Clean ("$" ++ toString (n + 1)).toList := by
    rw [String.toList_append]
    exact (clean_toString (n + 1)).trailing _ (by decide)
  have hdoubling := doubling_of_shipped h
  simp only [shipped, List.mem_cons, List.not_mem_nil, or_false] at h
  have hlock : ∀ mode, ∀ t ∈ d.lockText mode, Clean t.toList := by
    intro mode t ht
    rcases h with rfl | rfl | rfl | rfl <;> cases mode <;> cases ht <;> decide
  have hmark : Clean "?".toList := by decide
  rcases h with rfl | rfl | rfl | rfl
  · exact ⟨hdoubling, by decide, fun _ => hmark, by decide, by decide, hlock⟩
  · exact ⟨hdoubling, by decide, hnumbered, by decide, by decide, hlock⟩
  · exact ⟨hdoubling, by decide, fun _ => hmark, by decide, by decide, hlock⟩
  · exact ⟨hdoubling, by decide, fun _ => hmark, by decide, by decide, hlock⟩

def Literal.Tidy : Literal → Prop
  | numeric digits => Clean digits.toList
  | string s => SingleSpaced s.toList
  | _ => True

namespace Expr

open Writer

/-- What a node itself brings into the text has no stray spaces, and what has to be filled in is
filled in. -/
def Tidy : Expr Empty → Prop
  | raw sql => Clean sql.toList
  | identifier name | aliased _ name => SingleSpaced name.toList
  | column table name => (∀ t ∈ table, SingleSpaced t.toList) ∧ SingleSpaced name.toList
  | literal l => l.Tidy
  | list items separator => items ≠ [] ∧ separator = raw ", "
  | function name _ => Clean name.toList
  | lock _ | spaced _ => False
  | select s => s.columns ≠ []
  | update s => s.values ≠ []
  | _ => True

def isLocking : Expr Empty → Bool
  | lock _ => true
  | _ => false

/-- The trees below a node apart from a separator and from a lock in its own slot. -/
def inner : Expr Empty → List (Expr Empty)
  | list items _ => items
  | select s => { s with locking := none }.parts ++ s.locking.toList.filter (!·.isLocking)
  | e => e.children

inductive Neat : Expr Empty → Prop
  | node {e : Expr Empty} (here : e.Tidy) (below : ∀ c ∈ e.inner, Neat c) : Neat e

variable {d : Dialect}

theorem clean_operator (op : Operator) : Clean op.text.toList := by cases op <;> decide

theorem clean_method (method : JoinMethod) : Clean method.text.toList := by cases method <;> decide

theorem clean_direction (direction : Direction) : Clean direction.text.toList := by
  cases direction <;> decide

theorem clean_name (hd : d.Tidy) {n : String} (h : SingleSpaced n.toList) :
    (name n).Writes Clean d :=
  writes_dialectText (hd.doubling ▸ Quoted.clean_token hd.quote h)

theorem clean_bind (hd : d.Tidy) (v : Value) : (Writer.bind v).Writes Clean d :=
  fun q => ⟨_, hd.placeholder q.binds.length, String.toList_append⟩

theorem clean_column (hd : d.Tidy) {t : Option String} {n : String}
    (ht : ∀ s ∈ t, SingleSpaced s.toList) (hn : SingleSpaced n.toList) :
    (qualifierWriter t ++ columnWriter n).Writes Clean d := by
  have hcolumn : (columnWriter n).Writes Clean d := by
    unfold columnWriter
    split
    · exact writes_text (by decide)
    · exact clean_name hd hn
  cases t with
  | none => exact hcolumn
  | some t =>
    rw [qualifierWriter, append_assoc]
    exact (clean_name hd (ht t rfl)).followed (hcolumn.spacedOut (by decide))

theorem clean_literal (hd : d.Tidy) {l : Literal} (h : l.Tidy) : l.writer.Writes Clean d := by
  cases l with
  | all | null => exact writes_text (by decide)
  | default => exact writes_dialectText hd.default
  | boolean b => exact writes_dialectText (hd.boolean b)
  | numeric digits => exact writes_text h
  | string s => exact writes_text (Quoted.clean_token (by decide) h)

theorem trailing_lock (hd : d.Tidy) (mode : LockMode) :
    (Writer.spaced (lockWriter mode)).Writes Trailing d := by
  cases h : d.lockText mode with
  | none => exact trailing_spaced_of_silent (lockWriter_of_empty (by rw [h]; rfl))
  | some t =>
    refine Writes.spaced (writes_dialectText ?_)
    rw [h]
    exact hd.lock mode t h

theorem clean_select (hd : d.Tidy) {s : Select (Expr Empty)} (hne : s.columns ≠ [])
    (h : ∀ c ∈ (select s).inner, c.writer.Writes Clean d) : (select s).writer.Writes Clean d := by
  have hparts : ∀ w ∈ { s.map writer with locking := none }.parts, w.Writes Clean d := by
    intro w hw
    obtain ⟨c, hc, rfl⟩ := List.mem_map.1 (({ s with locking := none }).parts_map writer ▸ hw)
    exact h c (List.mem_append_left _ hc)
  have hlocking : ((s.map writer).segment .locking).writer.Writes Trailing d := by
    cases hs : s.locking with
    | none =>
      simp only [Select.segment, Select.map, hs]
      exact writes_nothing
    | some l =>
      have hl : l.isLocking = false → l.writer.Writes Clean d := fun hl =>
        h l (by simp [inner, hs, hl])
      simp only [Select.segment, Select.map, hs]
      cases l with
      | lock mode => exact trailing_lock hd mode
      | _ => exact (hl rfl).spaced
  rw [writer, selectWriters_eq_map]
  exact Select.clean_writer (by simpa [Select.map] using hne) hparts hlocking

theorem clean_writer (hd : d.Tidy) {e : Expr Empty} (h : e.Neat) : e.writer.Writes Clean d := by
  -- on the tree; a separator and a lock in its slot have no hypothesis, since neither is clean
  induction h with
  | @node e here below ih =>
    have all {xs : List (Expr Empty)} (h : ∀ x ∈ xs, x ∈ e.inner) :
        ∀ w ∈ xs.map writer, w.Writes Clean d := by
      intro w hw
      obtain ⟨x, hx, rfl⟩ := List.mem_map.1 hw
      exact ih x (h x hx)
    cases e with
    | own n => exact n.elim
    | lock | spaced => exact here.elim
    | raw s => exact writes_text here
    | identifier n => exact clean_name hd here
    | bind v => exact clean_bind hd v
    | literal l => exact clean_literal hd here
    | column t n => exact clean_column hd here.1 here.2
    | operator op => exact writes_text (clean_operator op)
    | binds vs =>
      refine clean_arguments fun w hw => ?_
      obtain ⟨v, -, rfl⟩ := List.mem_map.1 hw
      exact clean_bind hd v
    | group x => exact (ih x (by simp [inner, children])).parenthesized
    | aliased x n =>
      have hx := ih x (by simp [inner, children])
      rw [writer, append_assoc]
      exact hx.followed ((clean_name hd here).spacedOut (by decide))
    | order x direction =>
      have hx := ih x (by simp [inner, children])
      have hdirection := writes_text (d := d) (clean_direction direction)
      rw [writer, append_assoc]
      exact hx.followed (hdirection.spacedOut (by decide))
    | binary x op y =>
      have hx := ih x (by simp [inner, children])
      have hy := ih y (by simp [inner, children])
      have hop := writes_text (d := d) (clean_operator op)
      rw [writer, append_assoc, append_assoc, append_assoc, ← append_assoc (.text " ")]
      exact hx.followed ((hop.spacedOut (by decide)).chained (hy.spacedOut (by decide)))
    | join m x o =>
      have hx := ih x (by simp [inner, children])
      have ho : ∀ w ∈ o.map writer, w.Writes Clean d := by
        intro w hw
        obtain ⟨y, hy, rfl⟩ := Option.map_eq_some_iff.1 hw
        exact ih y (by simp [inner, children, hy])
      have hm := writes_text (d := d) (clean_method m)
      rw [writer, optionWriter_eq_map, append_assoc (.text m.text)]
      exact hm.followed (hx.spacedOut (by decide)) |>.followed (trailing_optional (by decide) ho)
    | function n xs =>
      have hn : (Writer.text n).Writes Clean d := writes_text here
      rw [writer, writers_eq_map]
      exact hn.followed ((clean_arguments (all fun x hx => hx)).imp Clean.trailing)
    | list xs x =>
      obtain ⟨hne, rfl⟩ := here
      rw [writer, writers_eq_map]
      exact clean_commaSeparated (by simpa using hne) (all fun y hy => hy)
    | select s => exact clean_select hd here ih
    | insert s =>
      rw [writer, insertWriters_eq_map]
      exact Insert.clean_writer (s.parts_map writer ▸ all fun x hx => hx)
    | update s =>
      rw [writer, updateWriters_eq_map]
      exact Update.clean_writer (by simpa [Update.map, Tidy] using here)
        (s.parts_map writer ▸ all fun x hx => hx)
    | delete s =>
      rw [writer, deleteWriters_eq_map]
      exact Delete.clean_writer (s.parts_map writer ▸ all fun x hx => hx)

/-- A statement has single spaces between its parts and no space at its ends. -/
theorem parts_stand_one_space_apart (e : Expr Empty) (d : Dialect) (hd : d.Tidy) (h : e.Neat) :
    Clean (Query.of d e).sql.toList := by
  obtain ⟨t, ht, hsql⟩ := clean_writer hd h {}
  exact hsql ▸ ht

/-- Spaces at the ends of a name stay between its quotes, and a lock takes its space with it, also
behind further clauses. -/
theorem parts_of_spacious_names :
    let restriction : Expr Empty := binary (column (some "u ") "b") .greaterOrEqual (bind (.int 1))
    let e : Expr Empty := select
      { columns := [function "f" [], column none " a"], tables := [identifier " t "],
        predicate := some restriction, limit := some 3, locking := some (lock .share) }
    Dialect.sqlite.Tidy ∧ e.Neat ∧
    (Query.of .sqlite e).sql =
      "SELECT f(), \" a\" FROM \" t \" WHERE \"u \".\"b\" >= ? LIMIT 3" ∧
    Clean (Query.of .sqlite e).sql.toList := by
  intro restriction e
  have hd : Dialect.sqlite.Tidy := Dialect.tidy_of_shipped (by simp [Dialect.shipped])
  have hrestriction : restriction.Neat := by
    refine .node trivial fun c hc => ?_
    change c ∈ [column (some "u ") "b", bind (.int 1)] at hc
    simp only [List.mem_cons, List.not_mem_nil, or_false] at hc
    rcases hc with rfl | rfl
    · exact .node ⟨by simp; decide, by decide⟩ (List.forall_mem_nil _)
    · exact .node trivial (List.forall_mem_nil _)
  have he : e.Neat := by
    refine .node (List.cons_ne_nil _ _) fun c hc => ?_
    change c ∈ [function "f" [], column none " a", identifier " t ", restriction] at hc
    simp only [List.mem_cons, List.not_mem_nil, or_false] at hc
    rcases hc with rfl | rfl | rfl | rfl
    · exact .node (by decide : Clean _) (List.forall_mem_nil _)
    · exact .node ⟨by simp, by decide⟩ (List.forall_mem_nil _)
    · exact .node (by decide : SingleSpaced _) (List.forall_mem_nil _)
    · exact hrestriction
  exact ⟨hd, he, by decide +kernel, parts_stand_one_space_apart e .sqlite hd he⟩

end Expr

end BoundSql
