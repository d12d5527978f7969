import Mathlib.Algebra.Order.Field.Basic
import Mathlib.Algebra.Order.Field.Rat
import Mathlib.Order.Interval.Set.Defs
import Mathlib.Tactic.FieldSimp
import Mathlib.Tactic.Linarith
import Mathlib.Tactic.Positivity
import Mathlib.Tactic.Ring
import BoundSql.Number.Binary64

/-! Rounding to a double finds the nearest magnitude. The bits of a double below its sign count the
magnitudes in their order, from zero to infinity, which stands where the next number would be: this
is about the places in that order, and about which of them is the nearest to a number. -/

namespace BoundSql.Binary64

/-- The magnitude that has a place in the order, in units of 2^-1074. The order goes on beyond the
place of infinity, as if there were larger exponents. -/
def unitsAt (m : Nat) : Nat :=
  if m < 2 ^ 52 then m else (2 ^ 52 + m % 2 ^ 52) * 2 ^ (m / 2 ^ 52 - 1)

/-- The number of units in one. -/
def unitsInOne : Nat := Nat.pow 2 1074

/-- The place of infinity. -/
def top : Nat := 2047 * 2 ^ 52

/-- Half the step from the greatest finite magnitude to that of infinity. -/
def halfStep : Nat := Nat.pow 2 2044

theorem unitsAt_of_lt {m : Nat} (h : m < 2 ^ 52) : unitsAt m = m := if_pos h

/-- A multiple of a power of two with 53 significant bits, or with fewer if the power is one. -/
theorem unitsAt_add {scale r : Nat} (hr : r ≤ 2 ^ 53) (h : scale = 0 ∨ 2 ^ 52 ≤ r) :
    unitsAt (scale * 2 ^ 52 + r) = r * 2 ^ scale := by
  by_cases hsmall : r < 2 ^ 52
  · obtain rfl : scale = 0 := h.resolve_right (by omega)
    rw [Nat.zero_mul, Nat.zero_add, unitsAt_of_lt hsmall, pow_zero, mul_one]
  · have hbig : ¬scale * 2 ^ 52 + r < 2 ^ 52 := by omega
    rw [unitsAt, if_neg hbig]
    by_cases hnext : r = 2 ^ 53
    · have hmod : (scale * 2 ^ 52 + r) % 2 ^ 52 = 0 := by omega
      have hdiv : (scale * 2 ^ 52 + r) / 2 ^ 52 - 1 = scale + 1 := by omega
      rw [hmod, hdiv, hnext]
      ring
    · have hmod : 2 ^ 52 + (scale * 2 ^ 52 + r) % 2 ^ 52 = r := by omega
      have hdiv : (scale * 2 ^ 52 + r) / 2 ^ 52 - 1 = scale := by omega
      rw [hmod, hdiv]

/-- Every place is reached in this way. -/
theorem exists_place (m : Nat) : ∃ scale r, m = scale * 2 ^ 52 + r ∧ r < 2 ^ 53 ∧
    (scale = 0 ∨ 2 ^ 52 ≤ r) := by
  by_cases h : m < 2 ^ 52
  · exact ⟨0, m, by omega, by omega, .inl rfl⟩
  · exact ⟨m / 2 ^ 52 - 1, 2 ^ 52 + m % 2 ^ 52, by omega, by omega, .inr (by omega)⟩

theorem unitsAt_succ {scale r : Nat} (hr : r < 2 ^ 53) (h : scale = 0 ∨ 2 ^ 52 ≤ r) :
    unitsAt (scale * 2 ^ 52 + r + 1) = unitsAt (scale * 2 ^ 52 + r) + 2 ^ scale := by
  rw [add_assoc, unitsAt_add hr.le h, unitsAt_add hr (h.imp_right fun h => h.trans (Nat.le_succ r)),
    Nat.succ_mul]

theorem unitsAt_lt_succ (m : Nat) : unitsAt m < unitsAt (m + 1) := by
  obtain ⟨scale, r, rfl, hr, h⟩ := exists_place m
  rw [unitsAt_succ hr h]
  exact Nat.lt_add_of_pos_right (Nat.two_pow_pos scale)

theorem strictMono_unitsAt : StrictMono unitsAt := strictMono_nat_of_lt_succ unitsAt_lt_succ

theorem unitsAt_top : unitsAt top = 2 ^ 2098 := by
  have h : top = 2046 * 2 ^ 52 + 2 ^ 52 := by rw [top]; omega
  rw [h, unitsAt_add (by omega) (.inr le_rfl), ← pow_add]

/-- The greatest finite magnitude is one step of the largest size below that of infinity. -/
theorem unitsAt_last : unitsAt top = unitsAt (top - 1) + 2 * halfStep := by
  have hlast : top - 1 = 2045 * 2 ^ 52 + (2 ^ 53 - 1) := by rw [top]; omega
  have htop : top = 2045 * 2 ^ 52 + (2 ^ 53 - 1) + 1 := by rw [top]; omega
  have hstep : 2 * halfStep = 2 ^ 2045 := by decide +kernel
  rw [hlast, htop, unitsAt_succ (by omega) (.inr (by omega)), hstep]

/-! Rounding finds the nearest place. -/

/-- How far the magnitude of a place is from a number of units. -/
def distance (s : ℚ) (m : Nat) : ℚ := |(unitsAt m : ℚ) - s|

/-- Whether a place is the nearest among some places, and an even one if another is equally near. -/
structure IsNearest (places : Set Nat) (s : ℚ) (m : Nat) : Prop where
  mem : m ∈ places
  closest : ∀ j ∈ places, distance s m ≤ distance s j
  even : ∀ j ∈ places, j ≠ m → distance s j = distance s m → m % 2 = 0

/-- A quotient is rounded by at most a half, and by a half only to an even number. -/
theorem abs_roundDiv_sub (a : Nat) {b : Nat} (hb : 0 < b) :
    |(roundDiv a b : ℚ) - a / b| ≤ 1 / 2 ∧
      (|(roundDiv a b : ℚ) - a / b| = 1 / 2 → roundDiv a b % 2 = 0) := by
  have hpos : (0 : ℚ) < b := by exact_mod_cast hb
  have hdiv : (a : ℚ) / b = (a / b : Nat) + ((a % b : Nat) : ℚ) / b := by
    rw [div_eq_iff hpos.ne', add_mul, div_mul_cancel₀ _ hpos.ne']
    exact_mod_cast (Nat.div_add_mod' a b).symm
  have hrest : (0 : ℚ) ≤ ((a % b : Nat) : ℚ) / b :=
    div_nonneg (Nat.cast_nonneg _) hpos.le
  unfold roundDiv
  simp only
  by_cases hdown : 2 * (a % b) < b
  · have hhalf : ((a % b : Nat) : ℚ) / b < 1 / 2 := by
      rw [div_lt_div_iff₀ hpos two_pos]
      exact_mod_cast (by omega : a % b * 2 < 1 * b)
    rw [if_pos hdown, hdiv, sub_add_cancel_left, abs_neg, abs_of_nonneg hrest]
    exact ⟨hhalf.le, fun h => absurd h hhalf.ne⟩
  · rw [if_neg hdown]
    by_cases hup : b < 2 * (a % b)
    · have hhalf : 1 / 2 < ((a % b : Nat) : ℚ) / b := by
        rw [div_lt_div_iff₀ two_pos hpos]
        exact_mod_cast (by omega : 1 * b < a % b * 2)
      have hone : ((a % b : Nat) : ℚ) / b < 1 := by
        rw [div_lt_one hpos]
        exact_mod_cast Nat.mod_lt a hb
      rw [if_pos hup, hdiv, Nat.cast_add, Nat.cast_one, add_sub_add_left_eq_sub,
        abs_of_pos (by linarith)]
      exact ⟨by linarith, fun h => by linarith⟩
    · have hhalf : ((a % b : Nat) : ℚ) / b = 1 / 2 := by
        rw [div_eq_div_iff hpos.ne' two_ne_zero]
        exact_mod_cast (by omega : a % b * 2 = 1 * b)
      rw [if_neg hup, hdiv, hhalf, Nat.cast_add, add_sub_add_left_eq_sub]
      refine ⟨?_, fun _ => by omega⟩
      rcases Nat.mod_two_eq_zero_or_one (a / b) with h | h <;> rw [h] <;> norm_num

/-- Of the naturals none is nearer to a number than one that is within a half of it. -/
theorem half_le_abs_sub {n : Nat} {x : ℚ} (h : |(n : ℚ) - x| ≤ 1 / 2) {i : Nat} (hi : i ≠ n) :
    1 / 2 ≤ |(i : ℚ) - x| := by
  have hone : (1 : ℚ) ≤ |(i : ℚ) - n| := by
    have : (1 : ℤ) ≤ |(i : ℤ) - n| := Int.one_le_abs (by omega)
    exact_mod_cast this
  have htriangle : |(i : ℚ) - n| ≤ |(i : ℚ) - x| + |x - n| := abs_sub_le _ _ _
  rw [abs_sub_comm x] at htriangle
  linarith

theorem roundDiv_le {a b k : Nat} (h : a < b * k) : roundDiv a b ≤ k := by
  have hq : a / b < k := Nat.div_lt_of_lt_mul h
  unfold roundDiv
  simp only
  split
  · exact hq.le
  · split <;> omega

theorem le_roundDiv {a b k : Nat} (hb : 0 < b) (h : b * k ≤ a) : k ≤ roundDiv a b := by
  have hq : k ≤ a / b := (Nat.le_div_iff_mul_le hb).2 (by rwa [mul_comm])
  unfold roundDiv
  simp only
  split
  · exact hq
  · split <;> omega

/-- What a quotient is scaled by: it leaves 53 significant bits, or fewer where it is one. -/
theorem exists_scale (scaled : Nat) {den : Nat} (hden : 0 < den) : ∃ scale,
    (if scaled / den < Nat.pow 2 53 then roundDiv scaled den
      else
        let step := Nat.pow 2 ((scaled / den).log2 - 52)
        roundDiv scaled (den * step) * step) = roundDiv scaled (den * 2 ^ scale) * 2 ^ scale ∧
    scaled < den * 2 ^ scale * 2 ^ 53 ∧ (scale = 0 ∨ den * 2 ^ scale * 2 ^ 52 ≤ scaled) := by
  simp only [Nat.pow_eq]
  by_cases hsmall : scaled / den < 2 ^ 53
  · refine ⟨0, by rw [if_pos hsmall, pow_zero, mul_one, mul_one], ?_, .inl rfl⟩
    rw [pow_zero, mul_one, mul_comm]
    exact (Nat.div_lt_iff_lt_mul hden).1 hsmall
  · have hne : scaled / den ≠ 0 := by omega
    have hlog : 53 ≤ (scaled / den).log2 := (Nat.le_log2 hne).2 (by omega)
    have hscale (n : Nat) : den * 2 ^ ((scaled / den).log2 - 52) * 2 ^ (52 + n) =
        2 ^ ((scaled / den).log2 + n) * den := by
      rw [mul_assoc, ← pow_add, mul_comm]
      congr 2
      omega
    refine ⟨(scaled / den).log2 - 52, by rw [if_neg hsmall], ?_, .inr ?_⟩
    · rw [hscale 1]
      exact (Nat.div_lt_iff_lt_mul hden).1 Nat.lt_log2_self
    · rw [hscale 0]
      exact (Nat.le_div_iff_mul_le hden).1 (Nat.log2_self_le hne)

/-- Every place has a multiple of a scale, or else it is at least half a scale below any number with
53 significant bits at it. -/
theorem multiple_or_below (scale j : Nat) :
    (∃ i, unitsAt j = i * 2 ^ scale) ∨
      (0 < scale ∧ 2 * unitsAt j + 2 ^ scale ≤ 2 ^ 53 * 2 ^ scale) := by
  obtain ⟨own, r, rfl, hr, h⟩ := exists_place j
  rw [unitsAt_add hr.le h]
  by_cases hscale : scale ≤ own
  · refine .inl ⟨r * 2 ^ (own - scale), ?_⟩
    rw [mul_assoc, ← pow_add, Nat.sub_add_cancel hscale]
  · refine .inr ⟨by omega, ?_⟩
    calc 2 * (r * 2 ^ own) + 2 ^ scale
      _ = r * 2 ^ (own + 1) + 2 ^ scale := by ring
      _ ≤ r * 2 ^ scale + 2 ^ scale :=
        Nat.add_le_add_right (Nat.mul_le_mul_left r (Nat.pow_le_pow_right two_pos (by omega))) _
      _ = (r + 1) * 2 ^ scale := by ring
      _ ≤ 2 ^ 53 * 2 ^ scale := Nat.mul_le_mul_right _ hr

/-- A number that is nearest in units of a scale belongs to the nearest of all places. -/
theorem isNearest_of_scale {scale r : Nat} {x : ℚ} (hhalf : |(r : ℚ) - x| ≤ 1 / 2)
    (heven : |(r : ℚ) - x| = 1 / 2 → r % 2 = 0) (hx : scale = 0 ∨ 2 ^ 52 ≤ x) (hr : r ≤ 2 ^ 53)
    (hr' : scale = 0 ∨ 2 ^ 52 ≤ r) :
    IsNearest Set.univ (x * 2 ^ scale) (scale * 2 ^ 52 + r) := by
  have hpos : (0 : ℚ) < 2 ^ scale := by positivity
  have hdistance (i : Nat) :
      |((i * 2 ^ scale : Nat) : ℚ) - x * 2 ^ scale| = |(i : ℚ) - x| * 2 ^ scale := by
    rw [Nat.cast_mul, Nat.cast_pow, Nat.cast_ofNat, ← sub_mul, abs_mul, abs_of_pos hpos]
  have hm : distance (x * 2 ^ scale) (scale * 2 ^ 52 + r) = |(r : ℚ) - x| * 2 ^ scale := by
    rw [distance, unitsAt_add hr hr', hdistance]
  -- any other place is a multiple of the scale, or it lies below the least number with 53 bits at it
  have hother (j : Nat) (hj : j ≠ scale * 2 ^ 52 + r) :
      1 / 2 * 2 ^ scale ≤ distance (x * 2 ^ scale) j := by
    rw [distance]
    rcases multiple_or_below scale j with ⟨i, hi⟩ | ⟨hscale, hbelow⟩
    · have hir : i ≠ r := by
        rintro rfl
        exact hj (strictMono_unitsAt.injective (hi.trans (unitsAt_add hr hr').symm))
      rw [hi, hdistance]
      exact mul_le_mul_of_nonneg_right (half_le_abs_sub hhalf hir) hpos.le
    · have hx : 2 ^ 52 * 2 ^ scale ≤ x * 2 ^ scale :=
        mul_le_mul_of_nonneg_right (hx.resolve_left hscale.ne') hpos.le
      have hbelow : 2 * (unitsAt j : ℚ) + 2 ^ scale ≤ 2 ^ 53 * 2 ^ scale := by exact_mod_cast hbelow
      rw [abs_of_nonpos (by linarith)]
      linarith
  refine ⟨Set.mem_univ _, fun j _ => ?_, fun j _ hj heq => ?_⟩
  · by_cases hj : j = scale * 2 ^ 52 + r
    · rw [hj]
    · rw [hm]
      exact (mul_le_mul_of_nonneg_right hhalf hpos.le).trans (hother j hj)
  · have hle := hother j hj
    rw [heq, hm] at hle
    have hexact := heven (le_antisymm hhalf (le_of_mul_le_mul_right hle hpos))
    omega

/-- A quotient is rounded to the nearest of all places. -/
theorem exists_isNearest_roundUnits (num : Nat) {den : Nat} (hden : 0 < den) : ∃ m,
    roundUnits num den = unitsAt m ∧ IsNearest Set.univ ((num : ℚ) / den * unitsInOne) m := by
  obtain ⟨scale, hround, hlt, hle⟩ := exists_scale (num * unitsInOne) hden
  have hstep : 0 < den * 2 ^ scale := Nat.mul_pos hden (Nat.two_pow_pos scale)
  have hr : roundDiv (num * unitsInOne) (den * 2 ^ scale) ≤ 2 ^ 53 := roundDiv_le hlt
  have hr' := hle.imp_right (le_roundDiv hstep)
  refine ⟨scale * 2 ^ 52 + roundDiv (num * unitsInOne) (den * 2 ^ scale), ?_, ?_⟩
  · rw [unitsAt_add hr hr', ← hround]
    delta unitsInOne roundUnits
    rfl
  · obtain ⟨hhalf, heven⟩ := abs_roundDiv_sub (num * unitsInOne) hstep
    have hpos : (0 : ℚ) < den := by exact_mod_cast hden
    have hunits : (num : ℚ) / den * unitsInOne =
        (num * unitsInOne : Nat) / (den * 2 ^ scale : Nat) * 2 ^ scale := by
      push_cast
      generalize (unitsInOne : ℚ) = u
      field_simp
    rw [hunits]
    refine isNearest_of_scale hhalf heven (hle.imp_right fun h => ?_) hr hr'
    rw [le_div_iff₀ (by exact_mod_cast hstep), mul_comm]
    exact_mod_cast h

namespace IsNearest

variable {s : ℚ} {m : Nat}

theorem zero (hs : 0 ≤ s) (h : s ≤ 1 / 2) : IsNearest Set.univ s 0 := by
  have hzero : distance s 0 = s := by
    rw [distance, unitsAt_of_lt (by decide), Nat.cast_zero, zero_sub, abs_neg, abs_of_nonneg hs]
  refine ⟨Set.mem_univ _, fun j _ => ?_, fun _ _ _ _ => rfl⟩
  by_cases hj : j = 0
  · rw [hj]
  · have hone : (1 : ℚ) ≤ unitsAt j := by
      have : 0 < unitsAt j := (Nat.zero_le _).trans_lt (strictMono_unitsAt (Nat.pos_of_ne_zero hj))
      exact_mod_cast this
    rw [hzero, distance, abs_of_nonneg (by linarith)]
    linarith

theorem top_of_le (h : unitsAt top ≤ s) : IsNearest (Set.Iic top) s top := by
  refine ⟨Set.mem_Iic.2 le_rfl, fun j hj => ?_, fun _ _ _ _ => by decide⟩
  have hle : (unitsAt j : ℚ) ≤ unitsAt top := by exact_mod_cast strictMono_unitsAt.monotone hj
  rw [distance, distance, abs_of_nonpos (by linarith), abs_of_nonpos (by linarith)]
  linarith

/-- Beyond the place of infinity, that place is the nearest that there is. -/
theorem min_top (h : IsNearest Set.univ s m) : IsNearest (Set.Iic top) s (min m top) := by
  by_cases hm : m ≤ top
  · rw [Nat.min_eq_left hm]
    exact ⟨hm, fun j _ => h.closest j (Set.mem_univ j), fun j _ => h.even j (Set.mem_univ j)⟩
  · have hlt : (unitsAt top : ℚ) < unitsAt m := by exact_mod_cast strictMono_unitsAt (not_le.1 hm)
    have hclosest := h.closest top (Set.mem_univ _)
    rw [Nat.min_eq_right (not_le.1 hm).le]
    refine top_of_le (not_lt.1 fun hs => ?_)
    rw [distance, distance, abs_of_pos (by linarith), abs_of_pos (by linarith)] at hclosest
    linarith

/-- Of two nearest places one would be even, and so not next to the other. -/
theorem not_lt {n : Nat} (hm : IsNearest (Set.Iic top) s m) (hn : IsNearest (Set.Iic top) s n) :
    ¬m < n := by
  intro hmn
  have heq : distance s n = distance s m := le_antisymm (hn.closest m hm.mem) (hm.closest n hn.mem)
  have hnext : m + 1 < n := by
    have := hm.even n hn.mem hmn.ne' heq
    have := hn.even m hm.mem hmn.ne heq.symm
    omega
  have hbetween := hm.closest (m + 1) (hnext.le.trans hn.mem)
  have hleft : (unitsAt m : ℚ) < unitsAt (m + 1) := by exact_mod_cast unitsAt_lt_succ m
  have hright : (unitsAt (m + 1) : ℚ) < unitsAt n := by exact_mod_cast strictMono_unitsAt hnext
  rw [distance, distance] at heq hbetween
  -- the number stands halfway between the two, so what lies between them is nearer
  obtain hsame | hhalfway := abs_eq_abs.1 heq
  · linarith
  · rw [abs_of_neg (by linarith : (unitsAt m : ℚ) - s < 0)] at hbetween
    obtain h | h := le_abs.1 hbetween <;> linarith

theorem unique {n : Nat} (hm : IsNearest (Set.Iic top) s m) (hn : IsNearest (Set.Iic top) s n) :
    m = n :=
  le_antisymm (Nat.not_lt.1 (not_lt hn hm)) (Nat.not_lt.1 (not_lt hm hn))

/-- The place of infinity is nearest from halfway between it and the greatest finite place, whose
fraction is odd. -/
theorem eq_top_iff (h : IsNearest (Set.Iic top) s m) :
    m = top ↔ (unitsAt top : ℚ) - halfStep ≤ s := by
  have hlast : (unitsAt top : ℚ) = unitsAt (top - 1) + 2 * halfStep := by
    exact_mod_cast unitsAt_last
  have hgap : (0 : ℚ) < halfStep := Nat.cast_pos.2 (by decide +kernel)
  constructor
  · rintro rfl
    have hclosest := h.closest (top - 1) (Set.mem_Iic.2 (Nat.sub_le _ _))
    rw [distance, distance] at hclosest
    by_contra hlt
    rw [abs_of_pos (by linarith)] at hclosest
    obtain hle | hle := le_abs.1 hclosest <;> linarith
  · intro hs
    by_contra hne
    have hle : m ≤ top - 1 := Nat.le_sub_one_of_lt (lt_of_le_of_ne h.mem hne)
    have hunits : (unitsAt m : ℚ) ≤ unitsAt (top - 1) := by
      exact_mod_cast strictMono_unitsAt.monotone hle
    have hclosest := h.closest top (Set.mem_Iic.2 le_rfl)
    have hm : distance s m = s - unitsAt m := by
      rw [distance, abs_of_neg (by linarith), neg_sub]
    have htop : distance s top ≤ s - unitsAt (top - 1) :=
      abs_le.2 ⟨by linarith, by linarith⟩
    have hsame : (unitsAt m : ℚ) = unitsAt (top - 1) := by linarith
    obtain rfl : m = top - 1 := strictMono_unitsAt.injective (by exact_mod_cast hsame)
    have heven := h.even top (Set.mem_Iic.2 le_rfl) (Ne.symm hne) (by linarith)
    exact absurd heven (by decide)

end IsNearest

end BoundSql.Binary64
