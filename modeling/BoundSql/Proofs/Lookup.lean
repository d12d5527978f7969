import Mathlib.Data.List.TFAE
import Mathlib.Tactic.TFAE
import BoundSql.Proofs.Row

/-! The ways to look up a column. A name is looked for among the columns, in the cells and in the
interchange form, by the first match, by any match and by the last insertion; all of them agree. -/

namespace BoundSql

/-- A type that columns are read at: the name of its shape in messages, and what it reads. -/
structure Reading (α : Type) where
  expected : String
  ofValue? : Value → Option α

/-- Reads the value of a column. -/
def Reading.decode {α : Type} (t : Reading α) (column : String) (v : Value) : Except DecodeError α :=
  match t.ofValue? v with
  | some x => .ok x
  | none => .error (.typeMismatch column t.expected v.typeName)

/-- The reading of a type that is known here. -/
def ColumnType.reading (t : ColumnType) : Reading t.Carrier := ⟨t.expected, t.ofValue?⟩

theorem ColumnType.decode_eq_reading (t : ColumnType) (column : String) (v : Value) :
    t.decode column v = t.reading.decode column v := by
  cases h : t.ofValue? v <;> simp only [ColumnType.decode, Reading.decode, reading, h]

/-- Whether it is said that there is no such column. -/
def missesColumn {α : Type} : Except DecodeError α → Bool
  | .error (.missingColumn _) => true
  | _ => false

namespace Binary64

/-- Equality as numbers: a number of any sign without units is zero, and NaN is equal to nothing. -/
def equals (x y : Binary64) : Bool :=
  !x.isNaN && !y.isNaN && (x = y || (x.units = 0 && y.units = 0))

end Binary64

/-- Equality of values, with floats as numbers. -/
def Value.equals : Value → Value → Bool
  | .float x, .float y => x.equals y
  | v, w => v = w

/-- Equality in interchange form, with floats as numbers. -/
def Json.equals : Json → Json → Bool
  | .number x, .number y => x.equals y
  | j, k => j = k

/-- Equality of objects, with floats as numbers. -/
def JsonObject.Equals (o o' : JsonObject) : Prop :=
  List.Forall₂ (fun e e' => e.1 = e'.1 ∧ e.2.equals e'.2 = true) o o'

instance (o o' : JsonObject) : Decidable (o.Equals o') :=
  inferInstanceAs (Decidable (List.Forall₂ _ o o'))

namespace Value

/-- Whether a value is anything but an infinite float or NaN. -/
def isFinite : Value → Bool
  | .float x => x.isFinite
  | _ => true

variable {v w : Value}

theorem json_inj (hv : v.isFinite = true) (hw : w.isFinite = true) (h : v.json = w.json) :
    v = w := by
  cases v <;> cases w <;> simp_all [isFinite, json]

theorem equals_of_json (hv : v.isFinite = true) (hw : w.isFinite = true)
    (h : v.json.equals w.json = true) : v.equals w = true := by
  cases v <;> cases w <;> simp_all [isFinite, json, Json.equals, equals]

end Value

namespace JsonObject

variable {o o' : JsonObject}

theorem mem_keys_iff (key : String) : key ∈ o.map Prod.fst ↔ (o.find? key).isSome = true := by
  simp only [find?, List.lookup_isSome_iff, List.mem_map, beq_iff_eq]
  exact exists_congr fun _ => and_congr_right fun _ => eq_comm

theorem Sorted.nodup_keys (h : o.Sorted) : (o.map Prod.fst).Nodup :=
  List.pairwise_map.2 (h.imp fun hlt => hlt.ne)

/-- An object is determined by what its keys find. -/
theorem Sorted.ext (h : o.Sorted) (h' : o'.Sorted) (hfind : ∀ key, o.find? key = o'.find? key) :
    o = o' :=
  h.eq_of_mem_iff h' fun ⟨key, j⟩ => by rw [h.mem_iff, h'.mem_iff, hfind]

/-- Objects that are alike entry by entry are alike key by key. -/
theorem find?_rel {R : Json → Json → Prop}
    (h : List.Forall₂ (fun e e' => e.1 = e'.1 ∧ R e.2 e'.2) o o') (key : String) :
    Option.Rel R (o.find? key) (o'.find? key) := by
  induction h with
  | nil => exact .none
  | @cons e e' rest rest' hentry _ ih =>
    rw [find?_cons, find?_cons, ← hentry.1]
    by_cases hk : key = e.1
    · rw [if_pos hk, if_pos hk]
      exact .some hentry.2
    · rwa [if_neg hk, if_neg hk]

end JsonObject

namespace Row

variable (r : Row)

/-- Reads a column at a type of the caller's own. -/
def decodeAs {α : Type} (t : Reading α) (column : String) : Except DecodeError α :=
  match r.value? column with
  | some v => t.decode column v
  | none => .error (.missingColumn column)

theorem decode_eq_decodeAs (t : ColumnType) (column : String) :
    r.decode t column = r.decodeAs t.reading column := by
  unfold decode decodeAs
  cases r.value? column with
  | none => rfl
  | some v => exact t.decode_eq_reading column v

theorem missesColumn_decode {α : Type} (t : Reading α) (column : String) (v : Value) :
    missesColumn (t.decode column v) = false := by
  unfold Reading.decode
  cases t.ofValue? v <;> rfl

theorem missesColumn_decodeAs {α : Type} (t : Reading α) (column : String) :
    missesColumn (r.decodeAs t column) = (r.value? column).isNone := by
  unfold decodeAs
  cases r.value? column with
  | none => rfl
  | some v => exact missesColumn_decode t column v

theorem missesColumn_decodeNull (column : String) :
    missesColumn (r.decodeNull column) = (r.value? column).isNone := by
  unfold decodeNull
  cases r.value? column <;> rfl

theorem contains_iff (column : String) : r.contains column = true ↔ column ∈ r.columns := by
  simp [contains]

theorem mem_keys_json_iff (column : String) :
    column ∈ r.json.map Prod.fst ↔ (r.value? column).isSome = true := by
  rw [JsonObject.mem_keys_iff, find?_json, Option.isSome_map]

theorem tfae_mem_columns {α : Type} (t : Reading α) (column : String) :
    [column ∈ r.columns, r.contains column = true, (r.value? column).isSome = true,
      missesColumn (r.decodeNull column) = false, missesColumn (r.decodeAs t column) = false,
      column ∈ r.json.map Prod.fst].TFAE := by
  tfae_have 2 ↔ 1 := r.contains_iff column
  tfae_have 1 ↔ 3 := r.mem_columns_iff column
  tfae_have 4 ↔ 3 := by rw [missesColumn_decodeNull, Option.isNone_eq_false_iff]
  tfae_have 5 ↔ 3 := by rw [missesColumn_decodeAs, Option.isNone_eq_false_iff]
  tfae_have 6 ↔ 3 := r.mem_keys_json_iff column
  tfae_finish

/-! Every other answer about a name depends on the value that it finds. -/

section

variable {r} {r' : Row} {column : String}

theorem contains_congr (h : r.value? column = r'.value? column) :
    r.contains column = r'.contains column := by
  rw [Bool.eq_iff_iff, contains_iff, contains_iff, mem_columns_iff, mem_columns_iff, h]

theorem decodeNull_congr (h : r.value? column = r'.value? column) :
    r.decodeNull column = r'.decodeNull column := by
  rw [decodeNull, decodeNull, h]

theorem decodeAs_congr {α : Type} (t : Reading α) (h : r.value? column = r'.value? column) :
    r.decodeAs t column = r'.decodeAs t column := by
  rw [decodeAs, decodeAs, h]

theorem json_congr (h : ∀ column, r.value? column = r'.value? column) : r.json = r'.json :=
  r.sorted_json.ext r'.sorted_json fun column => by rw [find?_json, find?_json, h]

end

/-- A value that is found belongs to the first cell of its name. -/
theorem value?_eq_some_iff {column : String} {v : Value} :
    r.value? column = some v ↔ ∃ before after,
      r.cells = before ++ (column, v) :: after ∧ column ∉ before.map Prod.fst := by
  rw [value?, List.lookup_eq_some_iff]
  refine exists_congr fun before => exists_congr fun after => and_congr_right fun _ => ?_
  simp only [bne_iff_ne, ne_eq, List.mem_map, not_exists, not_and]
  exact forall₂_congr fun _ _ => not_congr eq_comm

theorem value?_mem {column : String} {v : Value} (h : r.value? column = some v) :
    (column, v) ∈ r.cells := by
  obtain ⟨before, after, hcells, -⟩ := r.value?_eq_some_iff.1 h
  rw [hcells]
  exact List.mem_append_right before List.mem_cons_self

/-- Where every name stands once, every cell is found. -/
theorem value?_of_mem (h : r.columns.Nodup) {column : String} {v : Value}
    (hmem : (column, v) ∈ r.cells) : r.value? column = some v := by
  obtain ⟨before, after, hcells⟩ := List.append_of_mem hmem
  refine r.value?_eq_some_iff.2 ⟨before, after, hcells, fun hbefore => ?_⟩
  rw [columns, hcells, List.map_append, List.map_cons, List.nodup_append] at h
  exact h.2.2 column hbefore column List.mem_cons_self rfl

/-- More cells of names that occur already are not found. -/
theorem value?_append {more : List (String × Value)} (hmore : ∀ e ∈ more, e.1 ∈ r.columns)
    (column : String) : value? ⟨r.cells ++ more⟩ column = r.value? column := by
  have hor : value? ⟨r.cells ++ more⟩ column = (r.value? column).or (value? ⟨more⟩ column) :=
    List.lookup_append
  rw [hor]
  cases hv : r.value? column with
  | some v => rfl
  | none =>
    have habsent : column ∉ r.columns := (r.value?_eq_none_iff column).1 hv
    rw [Option.none_or, value?_eq_none_iff, columns, List.mem_map]
    rintro ⟨e, he, rfl⟩
    exact habsent (hmore e he)

/-- What is alike in interchange form is alike in the rows. -/
theorem value?_rel {R : Json → Json → Prop} {S : Value → Value → Prop}
    (hjson : ∀ v w : Value, v.isFinite = true → w.isFinite = true → R v.json w.json → S v w)
    {r r' : Row} (hr : ∀ e ∈ r.cells, e.2.isFinite = true) (hr' : ∀ e ∈ r'.cells, e.2.isFinite = true)
    (h : List.Forall₂ (fun e e' => e.1 = e'.1 ∧ R e.2 e'.2) r.json r'.json) (column : String) :
    Option.Rel S (r.value? column) (r'.value? column) := by
  have hfind := JsonObject.find?_rel h column
  rw [find?_json, find?_json] at hfind
  cases hv : r.value? column with
  | none =>
    cases hw : r'.value? column with
    | none => exact .none
    | some w => rw [hv, hw] at hfind; cases hfind
  | some v =>
    cases hw : r'.value? column with
    | none => rw [hv, hw] at hfind; cases hfind
    | some w =>
      rw [hv, hw] at hfind
      obtain ⟨hvw⟩ | _ := hfind
      exact .some (hjson v w (hr _ (r.value?_mem hv)) (hr' _ (r'.value?_mem hw)) hvw)

theorem value?_eq_of_json_eq {r r' : Row} (hr : ∀ e ∈ r.cells, e.2.isFinite = true)
    (hr' : ∀ e ∈ r'.cells, e.2.isFinite = true) (h : r.json = r'.json) (column : String) :
    r.value? column = r'.value? column := by
  have hsame : List.Forall₂ (fun e e' => e.1 = e'.1 ∧ e.2 = e'.2) r.json r'.json :=
    h ▸ List.forall₂_same.2 fun _ _ => ⟨rfl, rfl⟩
  have hrel := value?_rel (fun _ _ => Value.json_inj) hr hr' hsame column
  generalize r.value? column = v, r'.value? column = w at hrel ⊢
  cases hrel with
  | none => rfl
  | some hvw => exact congrArg some hvw

theorem value?_equals_of_json {r r' : Row} (hr : ∀ e ∈ r.cells, e.2.isFinite = true)
    (hr' : ∀ e ∈ r'.cells, e.2.isFinite = true) (h : r.json.Equals r'.json) (column : String) :
    Option.Rel (fun v w => v.equals w = true) (r.value? column) (r'.value? column) :=
  value?_rel (R := fun j k => j.equals k = true) (fun _ _ => Value.equals_of_json) hr hr' h column

/-- Every lookup of a name finds the first cell of that name, or every lookup finds nothing. The keys
in interchange form are the names of the columns, each once; further cells of names that occur are of
no account; and the interchange form tells apart all rows of finite values in which some name finds
different values, be floats compared by their bits or as numbers. -/
theorem lookups_agree (r : Row) :
    (∀ (column : String) {α : Type} (t : Reading α),
      [column ∈ r.columns, r.contains column = true, (r.value? column).isSome = true,
        missesColumn (r.decodeNull column) = false, missesColumn (r.decodeAs t column) = false,
        column ∈ r.json.map Prod.fst].TFAE) ∧
    (∀ (column : String) (t : ColumnType), r.decode t column = r.decodeAs t.reading column) ∧
    (∀ column ∈ r.columns, ∃ before v after,
      r.cells = before ++ (column, v) :: after ∧ column ∉ before.map Prod.fst ∧
      r.value? column = some v ∧ r.decodeNull column = .ok v.isNull ∧
      (∀ {α : Type} (t : Reading α), r.decodeAs t column = t.decode column v) ∧
      r.json.find? column = some v.json) ∧
    (r.json.map Prod.fst).Nodup ∧
    (∀ more : List (String × Value), (∀ e ∈ more, e.1 ∈ r.columns) →
      let s : Row := ⟨r.cells ++ more⟩
      s.columns = r.columns ++ more.map Prod.fst ∧ s.json = r.json ∧
      ∀ column, s.contains column = r.contains column ∧ s.value? column = r.value? column ∧
        s.decodeNull column = r.decodeNull column ∧
        ∀ {α : Type} (t : Reading α), s.decodeAs t column = r.decodeAs t column) ∧
    ∀ s : Row, (∀ e ∈ r.cells, e.2.isFinite = true) → (∀ e ∈ s.cells, e.2.isFinite = true) →
      (r.json = s.json → ∀ column, r.value? column = s.value? column) ∧
      (r.json.Equals s.json → ∀ column,
        Option.Rel (fun v w => v.equals w = true) (r.value? column) (s.value? column)) := by
  refine ⟨fun column _ t => r.tfae_mem_columns t column, fun column t => r.decode_eq_decodeAs t column,
    fun column hcolumn => ?_, r.sorted_json.nodup_keys, fun more hmore => ?_, fun s hr hs => ?_⟩
  · obtain ⟨v, hv⟩ := Option.isSome_iff_exists.1 ((r.mem_columns_iff column).1 hcolumn)
    obtain ⟨before, after, hcells, hfirst⟩ := r.value?_eq_some_iff.1 hv
    refine ⟨before, v, after, hcells, hfirst, hv, ?_, fun t => ?_, ?_⟩
    · rw [decodeNull, hv]
    · rw [decodeAs, hv]
    · rw [find?_json, hv]
      rfl
  · have hvalue := r.value?_append hmore
    exact ⟨List.map_append, json_congr hvalue, fun column => ⟨contains_congr (hvalue column),
      hvalue column, decodeNull_congr (hvalue column), fun t => decodeAs_congr t (hvalue column)⟩⟩
  · exact ⟨value?_eq_of_json_eq hr hs, value?_equals_of_json hr hs⟩

/-- Two columns of one name, and two zeros that are equal only as numbers. -/
theorem lookups_agree_on_repeated_names :
    let r : Row := ⟨[("id", .int 1), ("b", .blob [1]), ("id", .null), ("z", .float (.zero false))]⟩
    let more : List (String × Value) := [("b", .text "x"), ("id", .bool true)]
    let s : Row := ⟨[("z", .float (.zero true)), ("b", .blob [1]), ("id", .int 1)]⟩
    "id" ∈ r.columns ∧ (∃ before v after, r.cells = before ++ ("id", v) :: after ∧
      "id" ∉ before.map Prod.fst ∧ r.value? "id" = some v) ∧
    (∀ e ∈ more, e.1 ∈ r.columns) ∧ json ⟨r.cells ++ more⟩ = r.json ∧
    r.json = [("b", .array [1]), ("id", .integer 1), ("z", .number (.zero false))] ∧
    (∀ e ∈ r.cells, e.2.isFinite = true) ∧ (∀ e ∈ s.cells, e.2.isFinite = true) ∧
    r.json ≠ s.json ∧ r.json.Equals s.json ∧
    Option.Rel (fun v w => v.equals w = true) (r.value? "z") (s.value? "z") := by
  intro r more s
  obtain ⟨-, -, first, -, append, apart⟩ := lookups_agree r
  have hid : "id" ∈ r.columns := by decide +kernel
  have hmore : ∀ e ∈ more, e.1 ∈ r.columns := by decide +kernel
  have hr : ∀ e ∈ r.cells, e.2.isFinite = true := by decide +kernel
  have hs : ∀ e ∈ s.cells, e.2.isFinite = true := by decide +kernel
  have hequals : r.json.Equals s.json := by decide +kernel
  obtain ⟨before, v, after, hcells, hfirst, hvalue, -⟩ := first "id" hid
  exact ⟨hid, ⟨before, v, after, hcells, hfirst, hvalue⟩, hmore, (append more hmore).2.1,
    by decide +kernel, hr, hs, by decide +kernel, hequals, (apart s hr hs).2 hequals "z"⟩

end Row

end BoundSql
