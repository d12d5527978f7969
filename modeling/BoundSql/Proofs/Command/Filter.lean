import BoundSql.Command.Filter
import BoundSql.Proofs.Number.Decimal

/-! Filters of the command line. The first equals sign ends the column, and what stands behind it is
a whole number of 64 bits, else a decimal number in the range of finite doubles, else a text. -/

namespace BoundSql.Command

/-- Whether a text is a decimal number to which a finite double is nearest. -/
def IsFiniteDecimal (v : String) (x : Binary64) : Prop :=
  x.isFinite = true ∧ ∃ n : Numeral, n.text = v.toList ∧ n.Nearest x

/-- What a text denotes as a value. -/
inductive Denotes (v : String) : Value → Prop where
  | int {n : Int64} (h : IsInteger v.toList n.toInt) : Denotes v (.int n)
  | float {x : Binary64} (hint : ∀ n : Int64, ¬IsInteger v.toList n.toInt) (h : IsFiniteDecimal v x) :
    Denotes v (.float x)
  | text (hint : ∀ n : Int64, ¬IsInteger v.toList n.toInt) (hfloat : ∀ x, ¬IsFiniteDecimal v x) :
    Denotes v (.text v)

/-- The name of a column that can stand before the equals sign. -/
structure IsColumn (column : String) : Prop where
  ne_empty : column ≠ ""
  no_equals : '=' ∉ column.toList

section

variable {s v column : String} {x : Value}

theorem denotes_filterValue (v : String) : Denotes v (filterValue v) := by
  rw [filterValue]
  cases hint : readInt64 v with
  | ok n => exact .int (readInt64_eq_ok_iff.1 hint)
  | error e =>
    have hint : ∀ n : Int64, ¬IsInteger v.toList n.toInt := fun n hn => by
      rw [readInt64_eq_ok_iff.2 hn] at hint
      cases hint
    simp only
    cases hfloat : readBinary64? v with
    | none =>
      refine .text hint fun x hx => ?_
      rw [(readBinary64?_eq_some_iff hx.1).2 hx.2] at hfloat
      cases hfloat
    | some x =>
      simp only
      by_cases hfinite : x.isFinite = true
      · rw [if_pos hfinite]
        exact .float hint ⟨hfinite, (readBinary64?_eq_some_iff hfinite).1 hfloat⟩
      · rw [if_neg hfinite]
        refine .text hint fun y hy => hfinite ?_
        rw [(readBinary64?_eq_some_iff hy.1).2 hy.2] at hfloat
        cases hfloat
        exact hy.1

/-- A text denotes one value. -/
theorem Denotes.eq {y : Value} (h : Denotes v x) (h' : Denotes v y) : x = y := by
  cases h with
  | int h =>
    cases h' with
    | int h' =>
      rw [← readInt64_eq_ok_iff] at h h'
      rw [Except.ok.inj (h.symm.trans h')]
    | float hint => exact absurd h (hint _)
    | text hint => exact absurd h (hint _)
  | float hint h =>
    cases h' with
    | int h' => exact absurd h' (hint _)
    | float _ h' =>
      have hx := (readBinary64?_eq_some_iff h.1).2 h.2
      have hy := (readBinary64?_eq_some_iff h'.1).2 h'.2
      rw [Option.some.inj (hx.symm.trans hy)]
    | text _ hfloat => exact absurd h (hfloat _)
  | text hint hfloat =>
    cases h' with
    | int h' => exact absurd h' (hint _)
    | float _ h' => exact absurd h' (hfloat _)
    | text => rfl

theorem denotes_iff : Denotes v x ↔ filterValue v = x :=
  ⟨fun h => (denotes_filterValue v).eq h, fun h => h ▸ denotes_filterValue v⟩

theorem eq_append_iff : s = column ++ "=" ++ v ↔ s.toList = column.toList ++ '=' :: v.toList := by
  rw [← String.toList_inj, String.toList_append, String.toList_append, List.append_assoc]
  rfl

theorem readFilter_eq_ok_iff : readFilter s = .ok (column, x) ↔
    ∃ v, s = column ++ "=" ++ v ∧ IsColumn column ∧ Denotes v x := by
  rw [readFilter]
  constructor
  · intro h
    cases hs : Split.first? '=' s with
    | none =>
      rw [hs] at h
      cases h
    | some p =>
      obtain ⟨column', v⟩ := p
      rw [hs] at h
      simp only at h
      split at h
      · cases h
      next hne =>
        cases h
        obtain ⟨hs, hno⟩ := Split.first?_eq_some_iff.1 hs
        exact ⟨v, eq_append_iff.2 hs, ⟨hne, hno⟩, denotes_filterValue v⟩
  · rintro ⟨v, hs, hcolumn, hv⟩
    have hfirst : Split.first? '=' s = some (column, v) :=
      Split.first?_eq_some_iff.2 ⟨eq_append_iff.1 hs, hcolumn.no_equals⟩
    simp only [hfirst, if_neg hcolumn.ne_empty, denotes_iff.1 hv]

theorem exists_readFilter_iff :
    (∃ f, readFilter s = .ok f) ↔ '=' ∈ s.toList ∧ s.toList.head? ≠ some '=' := by
  constructor
  · rintro ⟨⟨column, x⟩, h⟩
    obtain ⟨v, hs, hcolumn, -⟩ := readFilter_eq_ok_iff.1 h
    rw [eq_append_iff.1 hs]
    have hne : column.toList ≠ [] := fun h => hcolumn.ne_empty (String.toList_eq_nil_iff.1 h)
    refine ⟨by simp, fun hhead => hcolumn.no_equals ?_⟩
    rw [List.head?_append_of_ne_nil _ hne] at hhead
    exact List.mem_of_mem_head? hhead
  · rintro ⟨hmem, hhead⟩
    obtain ⟨column, v, hs, hno⟩ := List.eq_append_cons_of_mem hmem
    have hne : column ≠ [] := by
      rintro rfl
      exact hhead (by rw [hs]; rfl)
    refine ⟨(String.ofList column, filterValue (String.ofList v)),
      readFilter_eq_ok_iff.2 ⟨String.ofList v, ?_, ⟨?_, ?_⟩, denotes_filterValue _⟩⟩
    · rw [eq_append_iff, String.toList_ofList, String.toList_ofList, hs]
    · rwa [Ne, ← String.toList_eq_nil_iff, String.toList_ofList]
    · rwa [String.toList_ofList]

/-- A text without digits is no number. -/
theorem denotes_text_of_no_digit (h : ∀ c ∈ v.toList, c.isDigit = false) : Denotes v (.text v) := by
  refine .text ?_ ?_
  · rintro n ⟨sign, digits, hs, hdigits, -⟩
    obtain ⟨c, hc⟩ := List.exists_mem_of_ne_nil _ hdigits.1
    have hnone := h c (by rw [hs]; exact List.mem_append_right _ hc)
    rw [hdigits.2 c hc] at hnone
    cases hnone
  · rintro x ⟨-, n, hs, -⟩
    obtain ⟨c, hc, hdigit⟩ := n.exists_digit
    rw [h c (hs ▸ hc)] at hdigit
    cases hdigit

/-- The words for infinity and for no number, in small letters. -/
def words : List (List Char) := ["nan".toList, "inf".toList, "infinity".toList]

theorem toLower_of_isDigit {c : Char} (h : c.isDigit = true) : c.toLower = c := by
  have hle : c.toNat ≤ '9'.toNat :=
    UInt32.le_iff_toNat_le.1 (of_decide_eq_true (Bool.and_eq_true_iff.1 h).2)
  refine dif_neg fun hupper => absurd (UInt32.le_iff_toNat_le.1 hupper.1) (Nat.not_le.2 ?_)
  exact Nat.lt_of_le_of_lt hle (by decide)

theorem no_digit_of_word (sign : Sign) {word : List Char} (h : word.map Char.toLower ∈ words) :
    ∀ c ∈ sign.text ++ word, c.isDigit = false := by
  have hsign : sign.text.all (!·.isDigit) = true := by cases sign <;> rfl
  have hwords : words.all (·.all (!·.isDigit)) = true := by decide
  intro c hc
  rw [← Bool.not_eq_true']
  rcases List.mem_append.1 hc with hc | hc
  · exact List.all_eq_true.1 hsign c hc
  · by_contra hdigit
    rw [Bool.not_eq_true, Bool.not_eq_false'] at hdigit
    have hnone := List.all_eq_true.1 (List.all_eq_true.1 hwords _ h) _ (List.mem_map_of_mem hc)
    rw [toLower_of_isDigit hdigit, hdigit] at hnone
    cases hnone

theorem abs_toInt_lt (k : Int64) : ((|k.toInt| : ℤ) : ℚ) < 2 ^ 1024 - 2 ^ 970 := by
  have hlow := k.le_toInt
  have hhigh := k.toInt_lt
  have habs : |k.toInt| ≤ 2 ^ 63 := abs_le.2 ⟨by omega, by omega⟩
  have hpower : (2 : ℚ) ^ 970 + 2 ^ 970 ≤ 2 ^ 1024 := by
    rw [← mul_two, ← pow_succ]
    exact pow_le_pow_right₀ (by norm_num) (by norm_num)
  calc ((|k.toInt| : ℤ) : ℚ)
    _ ≤ 2 ^ 63 := by exact_mod_cast habs
    _ < 2 ^ 970 := pow_lt_pow_right₀ (by norm_num) (by norm_num)
    _ ≤ 2 ^ 1024 - 2 ^ 970 := le_sub_iff_add_le.2 hpower

/-- A decimal number stays a text exactly if the nearest double is infinite. -/
theorem denotes_text_iff {n : Numeral} (h : n.text = v.toList) :
    Denotes v (.text v) ↔ 2 ^ 1024 - 2 ^ 970 ≤ n.magnitude := by
  constructor
  · intro htext
    obtain ⟨x, hx, -⟩ := n.existsUnique_nearest
    cases htext with
    | text _ hfloat =>
      refine hx.isFinite_eq_false_iff.1 (Bool.not_eq_true _ ▸ fun hfinite => ?_)
      exact hfloat x ⟨hfinite, n, h, hx⟩
  · intro hlarge
    -- the text may also be read as a whole number or in other ways, but it denotes one number only
    refine .text (fun k hk => ?_) fun x hx => ?_
    · obtain ⟨m, hm, hmagnitude⟩ := Numeral.exists_of_isInteger hk
      rw [← Numeral.magnitude_congr (hm.trans h.symm), hmagnitude] at hlarge
      exact absurd (abs_toInt_lt k) (not_lt.2 hlarge)
    · obtain ⟨hfinite, m, hm, hnearest⟩ := hx
      rw [← Numeral.magnitude_congr (hm.trans h.symm)] at hlarge
      rw [hnearest.isFinite_eq_false_iff.2 hlarge] at hfinite
      cases hfinite

theorem readFilter_column (hcolumn : IsColumn column) (h : Denotes v x) :
    readFilter (column ++ "=" ++ v) = .ok (column, x) :=
  readFilter_eq_ok_iff.2 ⟨v, rfl, hcolumn, h⟩

theorem readFilter_column_eq_ok_iff (hcolumn : IsColumn column) :
    readFilter (column ++ "=" ++ v) = .ok (column, x) ↔ Denotes v x := by
  refine ⟨fun h => ?_, readFilter_column hcolumn⟩
  rw [readFilter_column hcolumn (denotes_filterValue v)] at h
  cases h
  exact denotes_filterValue v

end

/-- A filter is read if its first equals sign is not its first character. The column is what stands
before that sign, and what follows is a whole number of 64 bits, else a decimal number that has a
finite nearest double, else a text as it was typed. In particular the decimal text of an integer
gives it back, the words for infinity and for no number are texts, and a decimal number is a text
exactly if it lies half a step or more beyond the greatest double. -/
theorem filters_are_read_exactly :
    (∀ s : String, (∃ f, readFilter s = .ok f) ↔ '=' ∈ s.toList ∧ s.toList.head? ≠ some '=') ∧
    (∀ (s column : String) (x : Value), readFilter s = .ok (column, x) ↔
      ∃ v, s = column ++ "=" ++ v ∧ IsColumn column ∧ Denotes v x) ∧
    (∀ v : String, ∃! x, Denotes v x) ∧
    (∀ n : Numeral, ∃! x, n.Nearest x) ∧
    ∀ column : String, IsColumn column →
      (∀ n : Int64, readFilter (column ++ "=" ++ toString n.toInt) = .ok (column, .int n)) ∧
      (∀ (sign : Sign) (word v : String), word.toList.map Char.toLower ∈ words →
        v.toList = sign.text ++ word.toList →
        readFilter (column ++ "=" ++ v) = .ok (column, .text v)) ∧
      (∀ (n : Numeral) (v : String), v.toList = n.text →
        (readFilter (column ++ "=" ++ v) = .ok (column, .text v) ↔
          2 ^ 1024 - 2 ^ 970 ≤ n.magnitude)) ∧
      ∀ v t : String, readFilter (column ++ "=" ++ v) = .ok (column, .text t) → t = v := by
  refine ⟨fun _ => exists_readFilter_iff, fun _ _ _ => readFilter_eq_ok_iff,
    fun v => ⟨_, denotes_filterValue v, fun _ h => h.eq (denotes_filterValue v)⟩,
    Numeral.existsUnique_nearest, fun column hcolumn => ⟨fun n => ?_, fun sign word v hword hv => ?_,
      fun n v hv => ?_, fun v t ht => ?_⟩⟩
  · exact readFilter_column hcolumn (.int (isInteger_toString n.toInt))
  · refine readFilter_column hcolumn (denotes_text_of_no_digit ?_)
    rw [hv]
    exact no_digit_of_word sign hword
  · exact (readFilter_column_eq_ok_iff hcolumn).trans (denotes_text_iff hv.symm)
  · cases (readFilter_column_eq_ok_iff hcolumn).1 ht
    rfl

theorem least_integer_and_infinity_are_read :
    readFilter ("id" ++ "=" ++ toString (Int64.minValue).toInt) = .ok ("id", .int Int64.minValue) ∧
      readFilter ("id" ++ "=" ++ "-Infinity") = .ok ("id", .text "-Infinity") :=
  have hcolumn : IsColumn "id" := ⟨by decide, by decide⟩
  have hread := filters_are_read_exactly.2.2.2.2 "id" hcolumn
  ⟨hread.1 _, hread.2.1 .minus "Infinity" _ (by decide) (by decide)⟩

end BoundSql.Command
