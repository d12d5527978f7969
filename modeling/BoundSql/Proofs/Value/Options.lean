import BoundSql.Row

/-! Options in options. Binding forgets the layers of an option, and reading puts them back: of all
terms that are bound as null only the outermost absence is read again, and every other term is read
as it was. An option changes nothing else of what is refused, or of what is said about it. -/

namespace BoundSql.ColumnType

/-- The type inside all options. -/
def core : ColumnType → ColumnType
  | base t => base t
  | any => any
  | option t => t.core

/-- Whether a term is no more than an absence, or null itself, behind layers of options. -/
def isAbsent : (t : ColumnType) → t.Carrier → Bool
  | base _, _ => false
  | any, v => v.isNull
  | option _, none => true
  | option t, some x => t.isAbsent x

/-- The term with every absence moved out to the outermost option. -/
def collapsed : (t : ColumnType) → t.Carrier → t.Carrier
  | base _, x => x
  | any, v => v
  | option t, x => if (option t).isAbsent x then none else x

/-- The value once it has been read at a type: truth values and floats may have been stored as whole
numbers. -/
def restored (t : ColumnType) (v : Value) : Value :=
  match t.core, v with
  | base .bool, .int n => if n = 0 then .bool false else if n = 1 then .bool true else .int n
  | base .float, .int n => .float (.ofInt n.toInt)
  | _, v => v

/-- The value that is bound for a term by the type's own instance, layer by layer. -/
def bound : (t : ColumnType) → t.Carrier → Value
  | base .int => fun n : Int64 => Bindable.toValue n
  | base .float => fun x : Binary64 => Bindable.toValue x
  | base .bool => fun b : Bool => Bindable.toValue b
  | base .text => fun s : String => Bindable.toValue s
  | base .blob => fun bytes : List UInt8 => Bindable.toValue bytes
  | any => fun v : Value => Bindable.toValue v
  | option t => fun x => @Bindable.toValue (Option t.Carrier) (@instBindableOption _ ⟨t.bound⟩) x

theorem bound_eq_toValue (t : ColumnType) (x : t.Carrier) : t.bound x = t.toValue x := by
  induction t with
  | base t => cases t <;> rfl
  | any => rfl
  | option t ih =>
    cases x with
    | none => rfl
    | some x => exact ih x

theorem toValue_eq_null_iff (t : ColumnType) (x : t.Carrier) :
    t.toValue x = .null ↔ t.isAbsent x = true := by
  induction t with
  | base t => cases t <;> simp [toValue, BaseType.toValue, isAbsent]
  | any => exact Value.isNull_iff.symm
  | option t ih =>
    cases x with
    | none => exact iff_of_true rfl rfl
    | some x => exact ih x

theorem collapsed_of_not_isAbsent (t : ColumnType) {x : t.Carrier} (h : ¬t.isAbsent x = true) :
    t.collapsed x = x := by
  cases t with
  | base | any => rfl
  | option t => exact if_neg h

/-- Reading a bound term gives the term with its absences at the outside. -/
theorem ofValue?_toValue (t : ColumnType) (x : t.Carrier) :
    t.ofValue? (t.toValue x) = some (t.collapsed x) := by
  induction t with
  | base t => exact t.ofValue?_toValue x
  | any => rfl
  | option t ih =>
    by_cases habsent : (option t).isAbsent x = true
    · rw [((option t).toValue_eq_null_iff x).2 habsent, collapsed, if_pos habsent]
      rfl
    · cases x with
      | none => exact absurd rfl habsent
      | some x =>
        have hnull : t.toValue x ≠ .null := mt (t.toValue_eq_null_iff x).1 habsent
        have hx : t.collapsed x = x := t.collapsed_of_not_isAbsent habsent
        calc (option t).ofValue? (t.toValue x)
          _ = (t.ofValue? (t.toValue x)).map some := t.ofValue?_option hnull
          _ = some (some x) := by rw [ih, hx, Option.map_some]
          _ = some ((option t).collapsed (some x)) := by
            rw [(option t).collapsed_of_not_isAbsent habsent]

theorem restored_null (t : ColumnType) : t.restored .null = .null := by
  unfold restored
  split <;> trivial

theorem toValue_of_ofValue?_base (t : BaseType) {v : Value} {x : t.Carrier}
    (h : t.ofValue? v = some x) : t.toValue x = (base t).restored v := by
  cases v with
  | int n =>
    cases t with
    | int | float => cases h; rfl
    | bool =>
      rw [BaseType.ofValue?] at h
      by_cases h0 : n = 0
      · rw [if_pos h0] at h
        cases h
        exact (if_pos h0).symm
      · rw [if_neg h0] at h
        by_cases h1 : n = 1
        · rw [if_pos h1] at h
          cases h
          exact (if_pos h1).symm.trans (if_neg h0).symm
        · rw [if_neg h1] at h
          cases h
    | text | blob => cases h
  | _ =>
    -- a value of another shape is read only at the type of its shape, and is kept
    cases t <;> cases h <;> rfl

/-- Binding what was read gives the value again, restored to the shape of the type. -/
theorem toValue_of_ofValue? (t : ColumnType) {v : Value} {x : t.Carrier} (h : t.ofValue? v = some x) :
    t.toValue x = t.restored v := by
  induction t with
  | base t => exact toValue_of_ofValue?_base t h
  | any => exact (Option.some.inj h).symm
  | option t ih =>
    by_cases hnull : v = .null
    · subst hnull
      obtain rfl : none = x := Option.some.inj h
      rw [restored_null]
      rfl
    · rw [t.ofValue?_option hnull] at h
      obtain ⟨y, hy, rfl⟩ := Option.map_eq_some_iff.1 h
      exact ih hy

theorem expected_core (t : ColumnType) : t.core.expected = t.expected := by
  induction t with
  | base | any => rfl
  | option t ih => exact ih

theorem ofValue?_eq_none_iff (t : ColumnType) {v : Value} (h : v ≠ .null) :
    t.ofValue? v = none ↔ t.core.ofValue? v = none := by
  induction t with
  | base | any => exact Iff.rfl
  | option t ih => rw [t.ofValue?_option h, Option.map_eq_none_iff, ih, core]

theorem decode_eq_error_iff (t : ColumnType) (column : String) (v : Value) (e : DecodeError) :
    t.decode column v = .error e ↔
      t.ofValue? v = none ∧ e = .typeMismatch column t.expected v.typeName := by
  unfold decode
  cases t.ofValue? v with
  | none => simp [eq_comm]
  | some x => simp

/-- Options refuse what the type inside them refuses, and say the same about it. -/
theorem decode_core_eq_error_iff (t : ColumnType) (column : String) {v : Value} (h : v ≠ .null)
    (e : DecodeError) : t.decode column v = .error e ↔ t.core.decode column v = .error e := by
  rw [decode_eq_error_iff, decode_eq_error_iff, t.ofValue?_eq_none_iff h, expected_core]

/-- A term that is bound and read again comes back, but for absences behind further options and null
as a value of any shape, which come back as the outermost absence; these are the terms that are bound
as null. A value that is read and bound again comes back, but for whole numbers that are read as truth
values or floats. An option takes null for itself, and refuses of all else what the type inside all
options refuses, with the same words. -/
theorem bound_terms_are_read_back :
    (∀ (t : ColumnType) (x : t.Carrier),
      (t.bound x = .null ↔ t.isAbsent x = true) ∧ t.ofValue? (t.bound x) = some (t.collapsed x)) ∧
    (∀ (t : ColumnType) (v : Value) (x : t.Carrier), t.ofValue? v = some x →
      t.bound x = t.restored v ∧
      (t.core = base .bool → ∀ n, v = .int n → n = 0 ∨ n = 1)) ∧
    (∀ (t : ColumnType) (column : String), (option t).decode column .null = .ok none) ∧
    (∀ (t : ColumnType) (column : String) (v : Value), v ≠ .null → ∀ e,
      (option t).decode column v = .error e ↔ t.core.decode column v = .error e) ∧
    ∀ (t : ColumnType) (column : String) (v : Value) (e : DecodeError),
      t.core.decode column v = .error e ↔
        t.core.ofValue? v = none ∧ e = .typeMismatch column t.core.expected v.typeName := by
  refine ⟨fun t x => ?_, fun t v x h => ⟨?_, ?_⟩, fun t column => rfl, fun t column v h e => ?_,
    fun t column v e => t.core.decode_eq_error_iff column v e⟩
  · rw [bound_eq_toValue]
    exact ⟨t.toValue_eq_null_iff x, t.ofValue?_toValue x⟩
  · rw [bound_eq_toValue]
    exact t.toValue_of_ofValue? h
  · rintro hcore n rfl
    have hnull : Value.int n ≠ .null := nofun
    refine Decidable.byContradiction fun hn => ?_
    obtain ⟨h0, h1⟩ := not_or.1 hn
    have hrefused : t.core.ofValue? (.int n) = none := by
      rw [hcore]
      simp [ofValue?, BaseType.ofValue?, h0, h1]
    rw [(t.ofValue?_eq_none_iff hnull).2 hrefused] at h
    cases h
  · exact (option t).decode_core_eq_error_iff column h e

/-- An absence in two options, null in an option, a whole number for a truth value in two options, and
a text where a number is wanted in two options. -/
theorem nested_options_are_read_back :
    let maybe := option (option (base .bool))
    maybe.ofValue? (maybe.bound (some none)) = some none ∧
    maybe.ofValue? (maybe.bound (some (some true))) = some (some (some true)) ∧
    (option any).ofValue? ((option any).bound (some .null)) = some none ∧
    maybe.ofValue? (.int 1) = some (some (some true)) ∧
    maybe.bound (some (some true)) = .bool true ∧
    (option (option (base .int))).decode "id" (.text "7") =
      .error (.typeMismatch "id" "int" "text") := by
  intro maybe
  obtain ⟨back, again, -, refused, words⟩ := bound_terms_are_read_back
  refine ⟨(back maybe (some none)).2, (back maybe (some (some true))).2,
    (back (option any) (some .null)).2, rfl, (again maybe (.int 1) (some (some true)) rfl).1, ?_⟩
  have htext : Value.text "7" ≠ .null := nofun
  exact (refused (option (base .int)) "id" (.text "7") htext _).2
    ((words (base .int) "id" (.text "7") _).2 ⟨rfl, rfl⟩)

end BoundSql.ColumnType
