import BoundSql.Proofs.Lookup
import BoundSql.Proofs.Value.Options
import BoundSql.Sqlite.Storage

/-! Values on their way through a database and back. The database knows no truth values, so what was
bound as one is read as a number, unless the column is declared for truth values; every type that can
be bound reads its own terms out of what comes back. -/

namespace BoundSql

namespace Value

/-- The value with a number for a truth value. -/
def numbered : Value → Value
  | bool b => int (if b then 1 else 0)
  | v => v

/-- The value as a database keeps it: without truth values, and with null for no number. -/
def kept : Value → Value
  | float x => if x.isNaN then null else float x
  | v => v.numbered

theorem kept_of_number {v : Value} (h : ∀ x, v = float x → x.isNaN = false) :
    v.kept = v.numbered := by
  cases v with
  | float x => exact if_neg (by rw [h x rfl]; decide)
  | _ => rfl

end Value

namespace Sqlite

/-- Whether a database gives back every argument of a query in the storage class in which it was
bound, where a truth value is a number and no number is null. -/
def Transparent (engine : Engine) : Prop :=
  ∀ arguments, engine arguments = arguments.map Argument.held

/-- A term that is bound under a name: of a base type, an option of one, or a value of any shape. A
float is a number. -/
structure BoundTerm where
  name : String
  type : ColumnType
  term : type.Carrier
  native : type = .any ∨ ∃ t, type = .base t ∨ type = .option (.base t)
  number : ∀ x, type.bound term = .float x → x.isNaN = false

def BoundTerm.value (e : BoundTerm) : Value := e.type.bound e.term

/-- The value of a datum of a known class. -/
def Datum.plain : Datum → Value
  | null | other _ => .null
  | integer n => .int n
  | real x => .float x
  | text s => .text s
  | blob bytes => .blob bytes

theorem value_of_known {d : Datum} (h : ∀ t, d ≠ .other t) (column : String) :
    d.value column = .ok d.plain := by
  cases d with
  | other t => exact absurd rfl (h t)
  | _ => rfl

theorem held_known (a : Argument) (t : String) : a.held ≠ .other t := by
  cases a with
  | double x =>
    rw [Argument.held]
    split <;> nofun
  | _ => nofun

theorem plain_held_ofValue (v : Value) : (Argument.ofValue v).held.plain = v.kept := by
  cases v with
  | float x =>
    rw [Argument.ofValue, Argument.held, Value.kept]
    split <;> rfl
  | _ => rfl

theorem mapM_eq_ok {ε α β : Type} {f : α → Except ε β} {g : α → β} {as : List α}
    (h : ∀ a ∈ as, f a = .ok (g a)) : as.mapM f = .ok (as.map g) := by
  induction as with
  | nil => rfl
  | cons a as ih =>
    rw [List.mapM_cons, h a List.mem_cons_self, ih fun b hb => h b (List.mem_cons_of_mem a hb)]
    rfl

/-- Data of known classes are read, each as its column shows it. -/
theorem readRow_of_known {data : List Datum} (h : ∀ t, .other t ∉ data) (columns : List Column) :
    readRow columns data =
      .ok ⟨(columns.zip data).map fun p => (p.1.name, p.1.shown p.2.plain)⟩ := by
  have hread : ∀ p ∈ columns.zip data, p.1.read p.2 = .ok (p.1.name, p.1.shown p.2.plain) := by
    intro p hp
    have hknown : ∀ t, p.2 ≠ .other t := fun t ht => h t (ht ▸ (List.of_mem_zip hp).2)
    rw [Column.read, value_of_known hknown]
    rfl
  rw [readRow, mapM_eq_ok hread]
  rfl

variable {engine : Engine}

/-- The row in which values are read back that were bound under names. -/
theorem readValues_of_transparent (h : Transparent engine) (names : List String)
    (values : List Value) :
    engine.readValues names [values] =
      ⟨[⟨(names.zip values).map fun p => (p.1, p.2.kept)⟩], .ok ()⟩ := by
  have hknown (t : String) : .other t ∉ (values.map Argument.ofValue).map Argument.held := by
    intro ht
    obtain ⟨a, -, ha⟩ := List.mem_map.1 ht
    exact held_known a t ha
  have hshown (name : String) (v : Value) : Column.shown { name } v = v := by cases v <;> rfl
  have hrow : readRow (undeclared names) ((values.map .ofValue).map Argument.held) =
      .ok ⟨(names.zip values).map fun p => (p.1, p.2.kept)⟩ := by
    rw [readRow_of_known hknown, undeclared]
    simp only [List.map_map, List.zip_map, Function.comp_def, Prod.map_fst, Prod.map_snd, hshown,
      plain_held_ofValue]
  simp only [Engine.readValues, List.map_cons, List.map_nil, deliver, h (values.map .ofValue), hrow]

theorem kept_kept (v : Value) : v.kept.kept = v.kept := by
  cases v with
  | float x =>
    have hx : (Value.float x).kept = if x.isNaN then .null else .float x := rfl
    split at hx
    · rw [hx]
      rfl
    · rw [hx, hx]
  | _ => rfl

theorem ofValue?_numbered_base (t : BaseType) (x : t.Carrier) :
    t.ofValue? (t.toValue x).numbered = some x := by
  cases t with
  | bool => cases x <;> rfl
  | _ => rfl

/-- A type that can be bound reads its terms out of what is kept of them. -/
theorem ofValue?_numbered (e : BoundTerm) (h : e.type ≠ .any) :
    e.type.ofValue? e.value.numbered = some e.term := by
  obtain ⟨name, type, term, native, number⟩ := e
  rw [BoundTerm.value, ColumnType.bound_eq_toValue]
  obtain rfl | ⟨t, rfl | rfl⟩ := native
  · exact absurd rfl h
  · exact ofValue?_numbered_base t term
  · cases term with
    | none => rfl
    | some x =>
      have hnull : (t.toValue x).numbered ≠ .null := by cases t <;> nofun
      have hbase : (ColumnType.base t).ofValue? (t.toValue x).numbered = some x :=
        ofValue?_numbered_base t x
      exact ((ColumnType.base t).ofValue?_option hnull).trans (by rw [hbase]; rfl)

/-- The row of bound terms, with numbers for truth values. -/
def numberedRow (terms : List BoundTerm) : Row := ⟨terms.map fun e => (e.name, e.value.numbered)⟩

theorem columns_numberedRow (terms : List BoundTerm) :
    (numberedRow terms).columns = terms.map BoundTerm.name := by
  rw [Row.columns, numberedRow, List.map_map]
  rfl

theorem kept_value (e : BoundTerm) : e.value.kept = e.value.numbered := Value.kept_of_number e.number

theorem readValues_terms (h : Transparent engine) (terms : List BoundTerm) :
    engine.readValues (terms.map BoundTerm.name) [terms.map BoundTerm.value] =
      ⟨[numberedRow terms], .ok ()⟩ := by
  rw [readValues_of_transparent h, List.zip_map', List.map_map, numberedRow]
  simp only [Function.comp_def, kept_value]

/-- What was read is read again when it is bound once more. -/
theorem readValues_numberedRow (h : Transparent engine) (terms : List BoundTerm) :
    engine.readValues (terms.map BoundTerm.name) [(numberedRow terms).cells.map Prod.snd] =
      ⟨[numberedRow terms], .ok ()⟩ := by
  rw [readValues_of_transparent h, numberedRow, List.map_map, List.zip_map', List.map_map]
  simp only [Function.comp_def, ← kept_value, kept_kept]

theorem value?_numberedRow {terms : List BoundTerm} (h : (terms.map BoundTerm.name).Nodup)
    {e : BoundTerm} (he : e ∈ terms) : (numberedRow terms).value? e.name = some e.value.numbered := by
  rw [← columns_numberedRow] at h
  exact Row.value?_of_mem _ h (List.mem_map_of_mem he)

/-- A column that is declared for truth values shows those that were bound. -/
theorem shown_kept_bool {c : Column} (h : c.isBoolean = true) (b : Bool) :
    c.shown (Value.bool b).kept = .bool b := by
  cases b <;> exact if_pos h

/-- Terms that are bound and read back in one row come back at their types, under their names and in
their order; as values of any shape they are what was bound, with numbers for truth values. Binding
the row once more and reading it again changes nothing. A column that is declared for truth values
shows one that was bound as itself, whatever else is in the row. -/
theorem values_survive_storage {engine : Engine} (hengine : Transparent engine) :
    (∀ terms : List BoundTerm, (terms.map BoundTerm.name).Nodup → ∃ r,
      engine.readValues (terms.map BoundTerm.name) [terms.map BoundTerm.value] = ⟨[r], .ok ()⟩ ∧
      r.columns = terms.map BoundTerm.name ∧
      (∀ e ∈ terms, e.type ≠ .any → r.decode e.type e.name = .ok e.term) ∧
      (∀ e ∈ terms, r.decode .any e.name = .ok e.value.numbered) ∧
      engine.readValues r.columns [r.cells.map Prod.snd] = ⟨[r], .ok ()⟩) ∧
    ∀ (columns : List Column) (data : List Datum), data.length = columns.length →
      (columns.map Column.name).Nodup → (∀ t, .other t ∉ data) → ∃ r,
      readRow columns data = .ok r ∧ r.columns = columns.map Column.name ∧
      ∀ c d b, (c, d) ∈ columns.zip data → c.isBoolean = true →
        engine [.ofValue (.bool b)] = [d] → r.value? c.name = some (.bool b) := by
  refine ⟨fun terms hnames => ?_, fun columns data hlength hnames hknown => ?_⟩
  · refine ⟨numberedRow terms, readValues_terms hengine terms, columns_numberedRow terms,
      fun e he htype => ?_, fun e he => ?_, ?_⟩
    · rw [Row.decode, value?_numberedRow hnames he]
      simp only [ColumnType.decode, ofValue?_numbered e htype]
    · rw [Row.decode, value?_numberedRow hnames he]
      rfl
    · rw [columns_numberedRow]
      exact readValues_numberedRow hengine terms
  · have hcolumns : Row.columns ⟨(columns.zip data).map fun p => (p.1.name, p.1.shown p.2.plain)⟩ =
        columns.map Column.name := by
      nth_rewrite 2 [← List.map_fst_zip hlength.ge]
      rw [Row.columns, List.map_map, List.map_map]
      rfl
    refine ⟨_, readRow_of_known hknown columns, hcolumns, fun c d b hmem hboolean hd => ?_⟩
    obtain rfl : (Argument.ofValue (.bool b)).held = d := by
      rw [hengine] at hd
      exact (List.cons.inj hd).1
    refine Row.value?_of_mem _ (hcolumns ▸ hnames) (List.mem_map.2 ⟨_, hmem, ?_⟩)
    rw [plain_held_ofValue, shown_kept_bool hboolean]

/-- A database that gives back what it holds, asked for a number, two truth values, one of them as a
value of any shape, and an absent float, and then for a truth value in a column declared for it. -/
theorem truth_values_survive_storage :
    (∃ r, readValues ["id", "active", "seen", "score"] [[.int 7, .bool true, .bool false, .null]] =
        ⟨[r], .ok ()⟩ ∧
      r.decode (.base .int) "id" = .ok 7 ∧ r.decode (.base .bool) "active" = .ok true ∧
      r.decode .any "seen" = .ok (.int 0) ∧
      r.decode (.option (.base .float)) "score" = .ok none) ∧
    ∃ r, readRow [⟨"id", "INTEGER"⟩, ⟨"active", "BOOLEAN"⟩] [.integer 7, .integer 1] = .ok r ∧
      r.value? "active" = some (.bool true) := by
  have hengine : Transparent (·.map Argument.held) := fun _ => rfl
  obtain ⟨back, shown⟩ := values_survive_storage hengine
  let id : BoundTerm := ⟨"id", .base .int, (7 : Int64), .inr ⟨.int, .inl rfl⟩, nofun⟩
  let active : BoundTerm := ⟨"active", .base .bool, true, .inr ⟨.bool, .inl rfl⟩, nofun⟩
  let seen : BoundTerm := ⟨"seen", .any, .bool false, .inl rfl, nofun⟩
  let score : BoundTerm := ⟨"score", .option (.base .float), none, .inr ⟨.float, .inr rfl⟩, nofun⟩
  constructor
  · obtain ⟨r, hread, -, hterm, hvalue, -⟩ := back [id, active, seen, score] (by decide)
    exact ⟨r, hread, hterm id (by simp) nofun, hterm active (by simp) nofun, hvalue seen (by simp),
      hterm score (by simp) nofun⟩
  · obtain ⟨r, hread, -, hbool⟩ := shown [⟨"id", "INTEGER"⟩, ⟨"active", "BOOLEAN"⟩]
      [.integer 7, .integer 1] rfl (by decide) (by simp)
    exact ⟨r, hread, hbool ⟨"active", "BOOLEAN"⟩ (.integer 1) true (by simp) (by decide +kernel) rfl⟩

end Sqlite

end BoundSql
