import BoundSql.Proofs.Number.Rounding

/-! Doubles as numbers. A double is nearest to a number if no other magnitude is nearer and, of two
that are equally near, its fraction is the even one; rounding finds it, and there is no other. -/

namespace BoundSql.Binary64

/-- The place of a double's magnitude: its bits without the sign. -/
def place (x : Binary64) : Nat := x.bits.toNat % 2 ^ 63

/-- The double with a sign and a place. -/
def ofPlace (negative : Bool) (m : Nat) : Binary64 :=
  ⟨UInt64.ofNat ((if negative then 2 ^ 63 else 0) + m)⟩

section Place

variable (x : Binary64)

theorem exponentField_eq : x.exponentField = x.place / 2 ^ 52 := by
  simp only [exponentField, place, Nat.pow_eq]
  omega

theorem fraction_eq : x.fraction = x.place % 2 ^ 52 := by
  simp only [fraction, place, Nat.pow_eq]
  omega

theorem units_eq_unitsAt : x.units = unitsAt x.place := by
  rw [units, unitsAt, spacing, exponentField_eq, fraction_eq]
  simp only [Nat.pow_eq]
  by_cases h : x.place < 2 ^ 52
  · rw [if_pos (by omega), if_pos h]
    omega
  · rw [if_neg (by omega), if_neg h]

theorem isNaN_eq_false_iff : x.isNaN = false ↔ x.place ≤ top := by
  have hplace : x.place < 2 ^ 63 := Nat.mod_lt _ (by decide)
  simp only [isNaN, exponentField_eq, fraction_eq, Bool.and_eq_false_iff, decide_eq_false_iff_not,
    top]
  omega

theorem isFinite_iff : x.isFinite = true ↔ x.place < top := by
  have hplace : x.place < 2 ^ 63 := Nat.mod_lt _ (by decide)
  simp only [isFinite, exponentField_eq, decide_eq_true_iff, top]
  omega

theorem ofPlace_place : ofPlace x.negative x.place = x := by
  have hbits : x.bits.toNat < 2 ^ 64 := x.bits.toNat_lt
  have hnat : (if x.negative then 2 ^ 63 else 0) + x.place = x.bits.toNat := by
    simp only [negative, place, Nat.pow_eq, decide_eq_true_eq]
    split <;> omega
  rw [ofPlace, hnat, UInt64.ofNat_toNat]

variable {m : Nat} (negative : Bool)

theorem toNat_bits_ofPlace (hm : m < 2 ^ 63) :
    (ofPlace negative m).bits.toNat = (if negative then 2 ^ 63 else 0) + m := by
  rw [ofPlace, UInt64.toNat_ofNat']
  cases negative <;> simp <;> omega

theorem place_ofPlace (hm : m < 2 ^ 63) : (ofPlace negative m).place = m := by
  rw [place, toNat_bits_ofPlace negative hm]
  cases negative <;> simp <;> omega

theorem negative_ofPlace (hm : m < 2 ^ 63) : (ofPlace negative m).negative = negative := by
  rw [Binary64.negative, toNat_bits_ofPlace negative hm, Nat.pow_eq]
  cases negative <;> simp
  omega

theorem ofParts_eq (exponent fraction : Nat) :
    ofParts negative exponent fraction = ofPlace negative (exponent * 2 ^ 52 + fraction) := by
  rw [ofParts, ofPlace, Nat.pow_eq, Nat.pow_eq, Nat.add_assoc]

/-- A magnitude becomes the double of its place, or infinity if its place lies beyond. -/
theorem ofUnits_unitsAt (m : Nat) : ofUnits negative (unitsAt m) = ofPlace negative (min m top) := by
  obtain ⟨scale, r, rfl, hr, h⟩ := exists_place m
  simp only [unitsAt_add hr.le h, ofUnits, infinity, ofParts_eq, Nat.pow_eq]
  by_cases hsmall : r < 2 ^ 52
  · obtain rfl : scale = 0 := h.resolve_right (by omega)
    have hmin : min (0 * 2 ^ 52 + r) top = 0 * 2 ^ 52 + r := Nat.min_eq_left (by rw [top]; omega)
    rw [pow_zero, mul_one, if_pos hsmall, hmin]
  · have hpos := Nat.two_pow_pos scale
    have hbig : ¬r * 2 ^ scale < 2 ^ 52 := by nlinarith
    have hne : r * 2 ^ scale ≠ 0 := by omega
    have hlog : (r * 2 ^ scale).log2 = 52 + scale := by
      rw [Nat.log2_eq_iff hne, pow_add, add_right_comm, pow_add]
      exact ⟨Nat.mul_le_mul_right _ (by omega), Nat.mul_lt_mul_of_pos_right hr hpos⟩
    have hdiv : r * 2 ^ scale / 2 ^ scale = r := Nat.mul_div_cancel r hpos
    rw [if_neg hbig, hlog, Nat.add_sub_cancel_left, hdiv]
    by_cases hinfinite : 2046 ≤ scale
    · rw [if_pos hinfinite, Nat.min_eq_right (by rw [top]; omega), top, Nat.add_zero]
    · have hplace : (scale + 1) * 2 ^ 52 + (r - 2 ^ 52) = scale * 2 ^ 52 + r := by omega
      rw [if_neg hinfinite, Nat.min_eq_left (by rw [top]; omega), hplace]

end Place

/-! The nearest double. -/

/-- The magnitude of a double as a number; infinity counts as 2^1024. -/
def magnitude (x : Binary64) : ℚ := x.units / unitsInOne

/-- Whether a double is nearest to a number with a sign: no magnitude is nearer, and if another is
equally near, the fraction is even. -/
structure Nearest (negative : Bool) (q : ℚ) (x : Binary64) : Prop where
  sign : x.negative = negative
  number : x.isNaN = false
  closest : ∀ y : Binary64, y.isNaN = false → |x.magnitude - q| ≤ |y.magnitude - q|
  even : ∀ y : Binary64, y.isNaN = false → y.magnitude ≠ x.magnitude →
    |y.magnitude - q| = |x.magnitude - q| → x.fraction % 2 = 0

theorem unitsInOne_pos : (0 : ℚ) < unitsInOne := Nat.cast_pos.2 (by decide +kernel)

theorem cast_unitsAt_top : (unitsAt top : ℚ) = 2 ^ 1024 * unitsInOne := by
  have h : 2 ^ 2098 = 2 ^ 1024 * unitsInOne := by decide +kernel
  rw [unitsAt_top, h, Nat.cast_mul, Nat.cast_pow, Nat.cast_ofNat]

theorem cast_halfStep : (halfStep : ℚ) = 2 ^ 970 * unitsInOne := by
  have h : halfStep = 2 ^ 970 * unitsInOne := by decide +kernel
  rw [h, Nat.cast_mul, Nat.cast_pow, Nat.cast_ofNat]

theorem abs_magnitude_sub (x : Binary64) (q : ℚ) :
    |x.magnitude - q| = distance (q * unitsInOne) x.place / unitsInOne := by
  rw [eq_div_iff unitsInOne_pos.ne', distance, ← units_eq_unitsAt, magnitude]
  nth_rewrite 2 [← abs_of_pos unitsInOne_pos]
  rw [← abs_mul, sub_mul, div_mul_cancel₀ _ unitsInOne_pos.ne']

theorem magnitude_ne_iff (x y : Binary64) : y.magnitude ≠ x.magnitude ↔ y.place ≠ x.place := by
  rw [magnitude, magnitude, units_eq_unitsAt, units_eq_unitsAt, Ne, div_left_inj' unitsInOne_pos.ne',
    Nat.cast_inj, strictMono_unitsAt.injective.eq_iff]

theorem nearest_iff (negative : Bool) (q : ℚ) (x : Binary64) :
    Nearest negative q x ↔
      x.negative = negative ∧ IsNearest (Set.Iic top) (q * unitsInOne) x.place := by
  have hfraction : x.fraction % 2 = x.place % 2 := by
    rw [fraction_eq]
    omega
  -- every place up to that of infinity belongs to a double
  have hplace (j : Nat) (hj : j ≤ top) :
      (ofPlace false j).isNaN = false ∧ (ofPlace false j).place = j := by
    have hj' : j < 2 ^ 63 := by
      rw [top] at hj
      omega
    rw [isNaN_eq_false_iff, place_ofPlace false hj']
    exact ⟨hj, rfl⟩
  constructor
  · intro h
    refine ⟨h.sign, x.isNaN_eq_false_iff.1 h.number, fun j hj => ?_, fun j hj hne heq => ?_⟩
    · have hclosest := h.closest _ (hplace j hj).1
      rwa [abs_magnitude_sub, abs_magnitude_sub, (hplace j hj).2,
        div_le_div_iff_of_pos_right unitsInOne_pos] at hclosest
    · have hne' : (ofPlace false j).magnitude ≠ x.magnitude := by
        rwa [magnitude_ne_iff, (hplace j hj).2]
      rw [← hfraction]
      refine h.even _ (hplace j hj).1 hne' ?_
      rw [abs_magnitude_sub, abs_magnitude_sub, (hplace j hj).2, heq]
  · rintro ⟨hsign, hmem, hclosest, heven⟩
    refine ⟨hsign, x.isNaN_eq_false_iff.2 hmem, fun y hy => ?_, fun y hy hne heq => ?_⟩
    · rw [abs_magnitude_sub, abs_magnitude_sub, div_le_div_iff_of_pos_right unitsInOne_pos]
      exact hclosest _ (y.isNaN_eq_false_iff.1 hy)
    · rw [abs_magnitude_sub, abs_magnitude_sub, div_left_inj' unitsInOne_pos.ne'] at heq
      rw [hfraction]
      exact heven _ (y.isNaN_eq_false_iff.1 hy) ((magnitude_ne_iff x y).1 hne) heq

section Nearest

variable (negative : Bool)

/-- A nearest place among all makes a nearest double. -/
theorem nearest_ofPlace {q : ℚ} {m : Nat} (h : IsNearest Set.univ (q * unitsInOne) m) :
    Nearest negative q (ofPlace negative (min m top)) := by
  have hplace : min m top < 2 ^ 63 := (Nat.min_le_right m top).trans_lt (by decide)
  rw [nearest_iff, negative_ofPlace negative hplace, place_ofPlace negative hplace]
  exact ⟨rfl, h.min_top⟩

theorem nearest_nearest (num : Nat) {den : Nat} (hden : 0 < den) :
    Nearest negative ((num : ℚ) / den) (nearest negative num den) := by
  obtain ⟨m, hround, hm⟩ := exists_isNearest_roundUnits num hden
  rw [nearest, hround, ofUnits_unitsAt]
  exact nearest_ofPlace negative hm

/-- A number below half the least positive double is rounded to zero. -/
theorem nearest_zero {q : ℚ} (hq : 0 ≤ q) (h : q * unitsInOne ≤ 1 / 2) :
    Nearest negative q (zero negative) := by
  have hzero : zero negative = ofPlace negative (min 0 top) := by
    rw [zero, ofParts_eq, Nat.zero_mul, Nat.zero_min]
  rw [hzero]
  exact nearest_ofPlace negative (.zero (mul_nonneg hq unitsInOne_pos.le) h)

/-- A number that is not below 2^1024 is rounded to infinity. -/
theorem nearest_infinity {q : ℚ} (h : 2 ^ 1024 ≤ q) : Nearest negative q (infinity negative) := by
  have hplace : top < 2 ^ 63 := by decide
  have hinfinity : infinity negative = ofPlace negative top := by
    rw [infinity, ofParts_eq, Nat.add_zero, top]
  rw [hinfinity, nearest_iff, negative_ofPlace negative hplace, place_ofPlace negative hplace]
  refine ⟨rfl, .top_of_le ?_⟩
  rw [cast_unitsAt_top]
  exact mul_le_mul_of_nonneg_right h unitsInOne_pos.le

variable {negative}

theorem Nearest.eq {q : ℚ} {x y : Binary64} (hx : Nearest negative q x) (hy : Nearest negative q y) :
    x = y := by
  rw [nearest_iff] at hx hy
  rw [← ofPlace_place x, ← ofPlace_place y, hx.1, hy.1, hx.2.unique hy.2]

/-- Every number has one nearest double. -/
theorem existsUnique_nearest (negative : Bool) {q : ℚ} (hq : 0 ≤ q) :
    ∃! x, Nearest negative q x := by
  have hquotient : q = (q.num.toNat : ℚ) / q.den := by
    have hnum : ((q.num.toNat : ℤ) : ℚ) = q.num := by
      rw [Int.toNat_of_nonneg (Rat.num_nonneg.2 hq)]
    rw [← Int.cast_natCast, hnum, Rat.num_div_den]
  have h := nearest_nearest negative q.num.toNat q.den_pos
  rw [← hquotient] at h
  exact ⟨_, h, fun _ hy => hy.eq h⟩

/-- The nearest double is infinite from half a step beyond the greatest finite double. -/
theorem Nearest.isFinite_eq_false_iff {q : ℚ} {x : Binary64} (h : Nearest negative q x) :
    x.isFinite = false ↔ 2 ^ 1024 - 2 ^ 970 ≤ q := by
  have hplace := (nearest_iff negative q x).1 h
  have hinfinite : x.isFinite = false ↔ x.place = top := by
    have := isNaN_eq_false_iff x |>.1 h.number
    rw [← Bool.not_eq_true, isFinite_iff]
    omega
  have hthreshold : (unitsAt top : ℚ) - halfStep = (2 ^ 1024 - 2 ^ 970) * unitsInOne := by
    rw [cast_unitsAt_top, cast_halfStep, sub_mul]
  rw [hinfinite, hplace.2.eq_top_iff, hthreshold, mul_le_mul_iff_left₀ unitsInOne_pos]

end Nearest

end BoundSql.Binary64
