import BoundSql.Model
import BoundSql.Proofs.Row

/-! Rows read as records, against columns read one by one. A record can be read if each of its fields
can be read alone; and a field is read as its column is, but for truth values that are stored as
numbers, floats that are not finite, and columns that are missing. -/

namespace BoundSql

namespace Field

/-- What is stored under a field's name where the field is not read as its column is. -/
inductive Differs (f : Field) : Option Value → Prop
  | truth {n : Int64} (hn : n = 0 ∨ n = 1) (ht : f.type = .bool) : Differs f (some (.int n))
  | infinite {x : Binary64} (hx : x.isFinite = false) (h : f.isOptional = true ∨ f.type = .float) :
    Differs f (some (.float x))
  | missing (h : f.isOptional = true) : Differs f none

end Field

namespace Model

/-- The fields of a record, each with the value that is read. -/
theorem readFields_eq_ok_iff {o : JsonObject} {fields : List Field} {entries : Record} :
    readFields o fields = .ok entries ↔
      entries.map Sigma.fst = fields ∧ ∀ e ∈ entries, e.1.read o = .ok e.2 := by
  induction fields generalizing entries with
  | nil => cases entries <;> simp [readFields]
  | cons f fs ih =>
    rw [readFields]
    constructor
    · intro h
      cases hx : f.read o with
      | error e => rw [hx] at h; cases h
      | ok x =>
        rw [hx] at h
        cases hs : readFields o fs with
        | error e => rw [hs] at h; cases h
        | ok es =>
          rw [hs] at h
          obtain rfl : ⟨f, x⟩ :: es = entries := Except.ok.inj h
          obtain ⟨hes, hread⟩ := ih.1 hs
          exact ⟨congrArg (f :: ·) hes, List.forall_mem_cons.2 ⟨hx, hread⟩⟩
    · rintro ⟨hfst, hread⟩
      obtain _ | ⟨⟨g, x⟩, es⟩ := entries
      · cases hfst
      · obtain ⟨rfl, hes⟩ := List.cons.inj hfst
        obtain ⟨hx, hrest⟩ := List.forall_mem_cons.1 hread
        have hx : g.read o = .ok x := hx
        rw [hx]
        simp only
        rw [ih.2 ⟨hes, hrest⟩]
        rfl

theorem checkEntries_eq_ok_iff {fields : List Field} {o : JsonObject} :
    checkEntries fields o = .ok () ↔
      ∀ e ∈ o, ∀ f, fields.find? (·.name = e.1) = some f → ∃ x, f.ofJson e.2 = .ok x := by
  induction o with
  | nil => simp [checkEntries]
  | cons e rest ih =>
    obtain ⟨key, j⟩ := e
    rw [checkEntries, List.forall_mem_cons]
    cases hf : fields.find? (·.name = key) with
    | none => simpa [hf] using ih
    | some f =>
      cases hj : f.ofJson j with
      | ok x => simpa [hj] using ih
      | error err => simp [hj]

variable {fields : List Field} {o : JsonObject}

/-- An object is read as a record if each field can be read. -/
theorem ofObject_eq_ok_iff (ho : o.Sorted) {m : Decoded} :
    (record fields).ofObject o = .ok m ↔
      ∃ entries, m = .record entries ∧ entries.map Sigma.fst = fields ∧
        ∀ e ∈ entries, e.1.read o = .ok e.2 := by
  have hcheck {entries : Record} (h : entries.map Sigma.fst = fields ∧
      ∀ e ∈ entries, e.1.read o = .ok e.2) : checkEntries fields o = .ok () := by
    rw [checkEntries_eq_ok_iff]
    intro e he f hf
    have hname : f.name = e.1 := by simpa using List.find?_some hf
    obtain ⟨⟨g, x⟩, hx, rfl⟩ := List.mem_map.1 (h.1 ▸ List.mem_of_find?_eq_some hf)
    have hread := h.2 _ hx
    rw [Field.read, hname, ho.mem_iff.1 he] at hread
    exact ⟨x, hread⟩
  rw [ofObject]
  constructor
  · intro h
    cases hc : checkEntries fields o with
    | error e => rw [hc] at h; cases h
    | ok u =>
      cases hs : readFields o fields with
      | error e => rw [hc, hs] at h; cases h
      | ok entries =>
        rw [hc, hs] at h
        exact ⟨entries, (Except.ok.inj h).symm, readFields_eq_ok_iff.1 hs⟩
  · rintro ⟨entries, rfl, hentries⟩
    rw [hcheck hentries, readFields_eq_ok_iff.2 hentries]
    rfl

theorem decode_eq_ok_iff (r : Row) {m : Decoded} :
    (record fields).decode r = .ok m ↔
      ∃ entries, m = .record entries ∧ entries.map Sigma.fst = fields ∧
        ∀ e ∈ entries, e.1.read r.json = .ok e.2 := by
  rw [← ofObject_eq_ok_iff r.sorted_json, decode]
  cases (record fields).ofObject r.json with
  | ok m' => exact ⟨fun h => congrArg Except.ok (Except.ok.inj h), fun h => congrArg _ h⟩
  | error e => exact ⟨nofun, nofun⟩

/-- A record with one field. -/
theorem decode_single_iff (f : Field) (r : Row) {m : Decoded} :
    (record [f]).decode r = .ok m ↔ ∃ x, f.read r.json = .ok x ∧ m = .record [⟨f, x⟩] := by
  rw [decode_eq_ok_iff]
  constructor
  · rintro ⟨entries, rfl, hfst, hread⟩
    obtain ⟨⟨g, x⟩, rfl, rfl⟩ := List.map_eq_singleton_iff.1 hfst
    exact ⟨x, hread _ List.mem_cons_self, rfl⟩
  · rintro ⟨x, hx, rfl⟩
    exact ⟨_, rfl, rfl, by simpa using hx⟩

/-! Entries that belong to no field. -/

theorem checkEntries_filter (fields : List Field) (o : JsonObject) :
    checkEntries fields (o.filter fun e => (fields.find? (·.name = e.1)).isSome) =
      checkEntries fields o := by
  induction o with
  | nil => rfl
  | cons e rest ih =>
    cases hf : fields.find? (·.name = e.1) with
    | none => rw [List.filter_cons_of_neg (by simp [hf]), ih, checkEntries, hf]
    | some f =>
      rw [List.filter_cons_of_pos (by simp [hf]), checkEntries, checkEntries, hf]
      simp only [ih]

theorem readFields_congr {o' : JsonObject}
    (h : ∀ f ∈ fields, o.find? f.name = o'.find? f.name) :
    readFields o fields = readFields o' fields := by
  induction fields with
  | nil => rfl
  | cons f fs ih =>
    rw [List.forall_mem_cons] at h
    rw [readFields, readFields, ih h.2, Field.read, Field.read, h.1]

/-- Only the entries of the fields count. -/
theorem ofObject_congr {o' : JsonObject} (ho : o.Sorted) (ho' : o'.Sorted)
    (h : ∀ f ∈ fields, o.find? f.name = o'.find? f.name) :
    (record fields).ofObject o = (record fields).ofObject o' := by
  have hfilter : (o.filter fun e => (fields.find? (·.name = e.1)).isSome) =
      o'.filter fun e => (fields.find? (·.name = e.1)).isSome := by
    refine (ho.filter _).eq_of_mem_iff (ho'.filter _) fun ⟨key, j⟩ => ?_
    rw [List.mem_filter, List.mem_filter, ho.mem_iff, ho'.mem_iff]
    refine and_congr_left fun hsome => ?_
    obtain ⟨f, hf⟩ := Option.isSome_iff_exists.1 hsome
    obtain rfl : f.name = key := by simpa using List.find?_some hf
    rw [h f (List.mem_of_find?_eq_some hf)]
  rw [ofObject, ofObject, ← checkEntries_filter, hfilter, checkEntries_filter, readFields_congr h]

end Model

/-! A field against its column. -/

/-- A value that is put into interchange form first is read in the same way, but for truth values
that are stored as numbers, and floats that are not finite. -/
theorem BaseType.ofJson?_json (t : BaseType) (v : Value)
    (hint : ∀ n, v = .int n → t = .bool → ¬(n = 0 ∨ n = 1))
    (hfloat : ∀ x, v = .float x → t = .float → x.isFinite = true) :
    t.ofJson? v.json = t.ofValue? v := by
  cases v with
  | int n =>
    cases t with
    | bool =>
      obtain ⟨h0, h1⟩ := not_or.1 (hint n rfl rfl)
      rw [ofValue?, if_neg h0, if_neg h1]
      rfl
    | _ => rfl
  | float x =>
    cases hx : x.isFinite with
    | true => rw [Value.json, if_pos hx]; cases t <;> rfl
    | false =>
      cases t with
      | float => rw [hfloat x rfl rfl] at hx; cases hx
      | _ => simp [Value.json, hx, ofJson?, ofValue?]
  | _ => cases t <;> rfl

theorem Value.json_eq_null_iff {v : Value} :
    v.json = .null ↔ v = .null ∨ ∃ x, v = .float x ∧ x.isFinite = false := by
  cases v with
  | float x => cases hx : x.isFinite <;> simp [json, hx]
  | _ => simp [json]

namespace Field

variable {r : Row}

/-- The value of a field in a row. -/
def own (f : Field) (r : Row) : Option f.columnType.Carrier := (f.read r.json).toOption

theorem toOption_eq_some_iff {ε α : Type} {e : Except ε α} {x : α} :
    e.toOption = some x ↔ e = .ok x := by
  cases e <;> simp [Except.toOption]

theorem own_of_some {f : Field} {v : Value} (h : r.value? f.name = some v) :
    f.own r = (f.ofJson v.json).toOption := by
  rw [own, read, r.find?_json, h]
  rfl

theorem own_of_none {f : Field} (h : r.value? f.name = none) : f.own r = f.absent.toOption := by
  rw [own, read, r.find?_json, h]
  rfl

theorem toOption_ofJson_required (name : String) (t : BaseType) (j : Json) :
    (ofJson ⟨name, t, false⟩ j).toOption = t.ofJson? j := by
  rw [ofJson]
  cases t.ofJson? j <;> rfl

theorem toOption_ofJson_optional (name : String) (t : BaseType) {j : Json} (h : j ≠ .null) :
    (ofJson ⟨name, t, true⟩ j).toOption = (t.ofJson? j).map some := by
  rw [ofJson]
  · cases t.ofJson? j <;> rfl
  · exact h

theorem toOption_decode (t : ColumnType) (column : String) :
    (r.decode t column).toOption = (r.value? column).bind t.ofValue? := by
  rw [Row.decode]
  cases r.value? column with
  | none => rfl
  | some v =>
    show (t.decode column v).toOption = t.ofValue? v
    rw [ColumnType.decode]
    cases t.ofValue? v <;> rfl

/-- What is stored is read in the same way, unless it is one of the three exceptions. -/
theorem own_eq_of_not_differs {f : Field} (h : ¬f.Differs (r.value? f.name)) :
    f.own r = (r.decode f.columnType f.name).toOption := by
  rw [toOption_decode]
  obtain ⟨name, t, optional⟩ := f
  cases hv : r.value? name with
  | none =>
    rw [own_of_none hv]
    cases optional with
    | false => rfl
    | true => exact absurd (hv ▸ .missing rfl) h
  | some v =>
    have hbase : t.ofJson? v.json = t.ofValue? v := by
      refine t.ofJson?_json v (fun n hn ht h01 => h ?_) fun x hx ht => ?_
      · rw [hv, hn]
        exact .truth h01 ht
      · by_contra hfinite
        refine h ?_
        rw [hv, hx]
        exact .infinite (by simpa using hfinite) (.inr ht)
    rw [own_of_some hv, Option.bind_some]
    cases optional with
    | false => rw [toOption_ofJson_required, hbase]; rfl
    | true =>
      by_cases hnull : v = .null
      · rw [hnull]; rfl
      · have hjson : v.json ≠ .null := by
          intro hj
          obtain hj | ⟨x, hx, hfinite⟩ := Value.json_eq_null_iff.1 hj
          · exact hnull hj
          · refine h ?_
            rw [hv, hx]
            exact .infinite hfinite (.inl rfl)
        rw [toOption_ofJson_optional _ _ hjson, hbase]
        exact (ColumnType.ofValue?_option (.base t) hnull).symm

/-! The three exceptions. -/

theorem own_of_truth {name : String} {n : Int64} (hv : r.value? name = some (.int n))
    (optional : Bool) : own ⟨name, .bool, optional⟩ r = none := by
  rw [own_of_some hv]
  cases optional <;> rfl

theorem decode_of_truth {name : String} {n : Int64} (hv : r.value? name = some (.int n))
    (hn : n = 0 ∨ n = 1) : r.decode (.base .bool) name = .ok (n = 1) ∧
      r.decode (.option (.base .bool)) name = .ok (some (n = 1)) := by
  rw [Row.decode, Row.decode, hv]
  rcases hn with rfl | rfl <;> exact ⟨rfl, rfl⟩

theorem json_of_infinite {x : Binary64} (hx : x.isFinite = false) : (Value.float x).json = .null := by
  simp [Value.json, hx]

theorem own_of_infinite {name : String} {x : Binary64} (hv : r.value? name = some (.float x))
    (hx : x.isFinite = false) (t : BaseType) :
    own ⟨name, t, false⟩ r = none ∧ own ⟨name, t, true⟩ r = some none := by
  rw [own_of_some hv, own_of_some hv, json_of_infinite hx, toOption_ofJson_required]
  cases t <;> exact ⟨rfl, rfl⟩

theorem decode_of_float {name : String} {x : Binary64} (hv : r.value? name = some (.float x)) :
    r.decode (.base .float) name = .ok x ∧ r.decode (.option (.base .float)) name = .ok (some x) := by
  rw [Row.decode, Row.decode, hv]
  exact ⟨rfl, rfl⟩

theorem decode_of_missing {name : String} (hv : r.value? name = none) (t : ColumnType) :
    r.decode t name = .error (.missingColumn name) := by
  rw [Row.decode, hv]

theorem own_of_missing {name : String} (hv : r.value? name = none) (t : BaseType) :
    own ⟨name, t, true⟩ r = some none := by
  rw [own_of_none hv]
  rfl

theorem own_ne_of_differs {f : Field} (h : f.Differs (r.value? f.name)) :
    f.own r ≠ (r.decode f.columnType f.name).toOption := by
  obtain ⟨name, t, optional⟩ := f
  cases hv : r.value? name with
  | none =>
    rw [hv] at h
    cases h with
    | missing h =>
      obtain rfl : optional = true := h
      rw [own_of_missing hv, decode_of_missing hv]
      nofun
  | some v =>
    rw [hv] at h
    cases h with
    | truth hn ht =>
      obtain rfl : t = .bool := ht
      obtain ⟨hbase, hoption⟩ := decode_of_truth hv hn
      rw [own_of_truth hv]
      cases optional with
      | false => exact fun he => nomatch he.trans (congrArg Except.toOption hbase)
      | true => exact fun he => nomatch he.trans (congrArg Except.toOption hoption)
    | infinite hx h =>
      obtain ⟨hrequired, hoptional⟩ := own_of_infinite hv hx t
      cases optional with
      | false =>
        obtain rfl : t = .float := h.resolve_left Bool.false_ne_true
        rw [hrequired]
        exact fun he => nomatch he.trans (congrArg Except.toOption (decode_of_float hv).1)
      | true =>
        rw [hoptional, toOption_decode, hv]
        cases t <;> nofun

end Field

namespace Model

variable {r : Row}

theorem decode_single_eq_ok_iff (f : Field) (x : f.columnType.Carrier) :
    (record [f]).decode r = .ok (.record [⟨f, x⟩]) ↔ f.own r = some x := by
  rw [Field.own, Field.toOption_eq_some_iff, decode_single_iff]
  constructor
  · rintro ⟨y, hy, heq⟩
    cases heq
    exact hy
  · exact fun hx => ⟨x, hx, rfl⟩

theorem decode_single_ne_ok {f : Field} (h : f.own r = none) (m : Decoded) :
    (record [f]).decode r ≠ .ok m := by
  intro hm
  obtain ⟨x, -, rfl⟩ := (decode_single_iff f r).1 hm
  rw [decode_single_eq_ok_iff, h] at hm
  cases hm

/-- A record can be read if each of its fields can be read alone, and then has their values. A field
alone is read exactly as its column is, unless a truth value is stored as a number, or a float is not
finite, or the column is missing: then an optional field is null, and others are refused. Columns
without a field never matter. -/
theorem decode_reads_columns :
    (∀ (fields : List Field) (r : Row) (m : Decoded), (record fields).decode r = .ok m ↔
      ∃ entries : Record, m = .record entries ∧ entries.map Sigma.fst = fields ∧
        ∀ e ∈ entries, (record [e.1]).decode r = .ok (.record [e])) ∧
    (∀ (f : Field) (r : Row),
      (∀ x, (record [f]).decode r = .ok (.record [⟨f, x⟩]) ↔ r.decode f.columnType f.name = .ok x) ↔
        ¬f.Differs (r.value? f.name)) ∧
    (∀ (r : Row) (name : String) (n : Int64), r.value? name = some (.int n) → n = 0 ∨ n = 1 →
      (∀ optional m, (record [⟨name, .bool, optional⟩]).decode r ≠ .ok m) ∧
      r.decode (.base .bool) name = .ok (n = 1) ∧
      r.decode (.option (.base .bool)) name = .ok (some (n = 1))) ∧
    (∀ (r : Row) (name : String) (x : Binary64), r.value? name = some (.float x) →
      x.isFinite = false →
      (∀ t m, (record [⟨name, t, false⟩]).decode r ≠ .ok m) ∧
      (∀ t, (record [⟨name, t, true⟩]).decode r = .ok (.record [⟨⟨name, t, true⟩, none⟩])) ∧
      r.decode (.base .float) name = .ok x ∧
      r.decode (.option (.base .float)) name = .ok (some x)) ∧
    (∀ (r : Row) (name : String), r.value? name = none →
      (∀ t, r.decode t name = .error (.missingColumn name)) ∧
      ∀ t, (record [⟨name, t, true⟩]).decode r = .ok (.record [⟨⟨name, t, true⟩, none⟩])) ∧
    ∀ (fields : List Field) (r r' : Row), (∀ f ∈ fields, r.value? f.name = r'.value? f.name) →
      (record fields).decode r = (record fields).decode r' := by
  refine ⟨fun fields r m => ?_, fun f r => ?_, fun r name n hv hn => ?_, fun r name x hv hx => ?_,
    fun r name hv => ?_, fun fields r r' h => ?_⟩
  · rw [decode_eq_ok_iff]
    refine exists_congr fun entries => and_congr_right fun _ => and_congr_right fun _ => ?_
    refine forall₂_congr fun ⟨f, x⟩ _ => ?_
    rw [decode_single_eq_ok_iff, Field.own, Field.toOption_eq_some_iff]
  · have hown : (∀ x, (record [f]).decode r = .ok (.record [⟨f, x⟩]) ↔
        r.decode f.columnType f.name = .ok x) ↔
        f.own r = (r.decode f.columnType f.name).toOption := by
      rw [Option.ext_iff]
      refine forall_congr' fun x => ?_
      rw [decode_single_eq_ok_iff, Field.toOption_eq_some_iff]
    rw [hown]
    exact ⟨fun heq h => Field.own_ne_of_differs h heq, Field.own_eq_of_not_differs⟩
  · exact ⟨fun optional => decode_single_ne_ok (Field.own_of_truth hv optional),
      Field.decode_of_truth hv hn⟩
  · have hown := Field.own_of_infinite hv hx
    exact ⟨fun t => decode_single_ne_ok (hown t).1,
      fun t => (decode_single_eq_ok_iff _ _).2 (hown t).2, Field.decode_of_float hv⟩
  · exact ⟨Field.decode_of_missing hv,
      fun t => (decode_single_eq_ok_iff _ _).2 (Field.own_of_missing hv t)⟩
  · have hjson : ∀ f ∈ fields, r.json.find? f.name = r'.json.find? f.name := fun f hf => by
      rw [r.find?_json, r'.find?_json, h f hf]
    rw [decode, decode, ofObject_congr r.sorted_json r'.sorted_json hjson]

/-- A column that comes twice, one without a field, and each of the three exceptions. -/
theorem decode_of_exceptions :
    let r : Row := ⟨[("n", .int 1), ("x", .float (.infinity true)), ("n", .null), ("z", .null)]⟩
    let r' : Row := ⟨[("n", .int 1)]⟩
    let fields : List Field := [⟨"n", .int, false⟩, ⟨"y", .text, true⟩]
    (∀ e ∈ ([⟨⟨"n", .int, false⟩, (1 : Int64)⟩, ⟨⟨"y", .text, true⟩, none⟩] : Record),
      (record [e.1]).decode r = .ok (.record [e])) ∧
    (record fields).decode r' =
      .ok (.record [⟨⟨"n", .int, false⟩, (1 : Int64)⟩, ⟨⟨"y", .text, true⟩, none⟩]) ∧
    (∀ m, (record [⟨"n", .bool, true⟩]).decode r ≠ .ok m) ∧
    r.decode (.option (.base .bool)) "n" = .ok (some true) ∧
    (record [⟨"x", .blob, true⟩]).decode r = .ok (.record [⟨⟨"x", .blob, true⟩, none⟩]) ∧
    r.decode (.base .float) "x" = .ok (.infinity true) := by
  intro r r' fields
  obtain ⟨whole, alone, truth, infinite, missing, extra⟩ := decode_reads_columns
  have hn : ¬Field.Differs ⟨"n", .int, false⟩ (r.value? "n") := nofun
  have hentries : ∀ e ∈ ([⟨⟨"n", .int, false⟩, (1 : Int64)⟩, ⟨⟨"y", .text, true⟩, none⟩] : Record),
      (record [e.1]).decode r = .ok (.record [e]) := by
    rw [List.forall_mem_cons, List.forall_mem_singleton]
    exact ⟨((alone ⟨"n", .int, false⟩ r).2 hn (1 : Int64)).2 rfl, (missing r "y" rfl).2 .text⟩
  have htruth := truth r "n" 1 rfl (.inr rfl)
  have hinfinite := infinite r "x" (.infinity true) rfl (by decide +kernel)
  refine ⟨hentries, ?_, htruth.1 true, htruth.2.2, hinfinite.2.1 .blob, hinfinite.2.2.1⟩
  have hsame : ∀ f ∈ fields, r'.value? f.name = r.value? f.name := by
    rw [List.forall_mem_cons, List.forall_mem_singleton]
    exact ⟨rfl, rfl⟩
  rw [extra fields r' r hsame, whole]
  exact ⟨_, rfl, rfl, hentries⟩

end Model

end BoundSql
