import Mathlib.Algebra.Order.Field.Power
import Mathlib.Data.List.TakeDrop
import Mathlib.Data.List.TakeWhile
import BoundSql.Number.Decimal
import BoundSql.Proofs.Number.Binary64
import BoundSql.Proofs.Number.Integer

/-! Decimal numbers as they are written: one sign or none, digits with at most one point among or
around them, and an exponent, if there is one. Reading accepts these and a few words, and it finds
the double that is nearest to what is written. -/

namespace BoundSql

/-- The number itself. -/
def Scientific.magnitude (d : Scientific) : ℚ := d.significand * 10 ^ d.exponent

/-- The exponent at the end of a decimal number. -/
structure Exponent where
  mark : Char
  sign : Sign
  digits : List Char
  isMark : mark = 'e' ∨ mark = 'E'
  isDigits : IsDigits digits

/-- A decimal number; its fraction is what stands after the point, if there is one. -/
structure Numeral where
  sign : Sign
  whole : List Char
  fraction : Option (List Char)
  exponent : Option Exponent
  isDigits : IsDigits (whole ++ fraction.getD [])

namespace Exponent

def text : Option Exponent → List Char
  | none => []
  | some e => e.mark :: (e.sign.text ++ e.digits)

def value : Option Exponent → Int
  | none => 0
  | some e => e.sign.apply (digitsValue e.digits)

theorem head_text (e : Option Exponent) : ∀ c ∈ (text e).head?, c = 'e' ∨ c = 'E' := by
  cases e with
  | none => simp [text]
  | some e => simpa [text] using e.isMark

end Exponent

namespace Numeral

variable (n : Numeral)

def fractionText : List Char := n.fraction.elim [] ('.' :: ·)

/-- The text behind the sign. -/
def unsigned : List Char := n.whole ++ (n.fractionText ++ Exponent.text n.exponent)

def text : List Char := n.sign.text ++ n.unsigned

/-- The number without its sign. -/
def magnitude : ℚ :=
  (digitsValue n.whole + digitsValue (n.fraction.getD []) / 10 ^ (n.fraction.getD []).length) *
    10 ^ Exponent.value n.exponent

/-- The same number as a whole number and a power of ten. -/
def scientific : Scientific :=
  ⟨digitsValue (n.whole ++ n.fraction.getD []),
    Exponent.value n.exponent - (n.fraction.getD []).length⟩

theorem magnitude_scientific : n.scientific.magnitude = n.magnitude := by
  have hdigits : digitsValue (n.whole ++ n.fraction.getD []) =
      10 ^ (n.fraction.getD []).length * digitsValue n.whole + digitsValue (n.fraction.getD []) := by
    rw [digitsValue, Nat.ofDigitChars_append, Nat.ofDigitChars_eq_ofDigitChars_zero]
  rw [magnitude, scientific, Scientific.magnitude, hdigits, zpow_sub₀ (by norm_num), zpow_natCast]
  push_cast
  field_simp

theorem head_rest : ∀ c ∈ (n.fractionText ++ Exponent.text n.exponent).head?,
    c = '.' ∨ c = 'e' ∨ c = 'E' := by
  rw [fractionText]
  cases n.fraction with
  | none => simpa using fun c hc => .inr (Exponent.head_text n.exponent c hc)
  | some f => simp

theorem signless_unsigned : Signless n.unsigned := by
  have h := n.isDigits
  rw [unsigned]
  cases hw : n.whole with
  | cons c whole =>
    rw [hw] at h
    exact h.signless
  | nil =>
    -- without digits in front, the text begins with a point or a mark
    intro c hc
    rcases n.head_rest c hc with rfl | rfl | rfl <;> decide

end Numeral

/-! Numbers as they are read. -/

namespace Decimal

theorem value_eq (s : List Char) : value s = digitsValue s := Nat.ofDigitChars_eq_foldl.symm

theorem cutSign_append (sign : Sign) {r : List Char} (hr : Signless r) :
    cutSign (sign.text ++ r) = (sign.negative, r) := by
  cases sign with
  | plus => rfl
  | minus => rfl
  | none =>
    show cutSign r = (false, r)
    unfold cutSign
    split
    · exact absurd rfl (hr _ rfl).1
    · exact absurd rfl (hr _ rfl).2
    · rfl

theorem exists_sign (s : List Char) :
    ∃ (sign : Sign) (r : List Char), s = sign.text ++ r ∧ cutSign s = (sign.negative, r) := by
  unfold cutSign
  split
  · exact ⟨.plus, _, rfl, rfl⟩
  · exact ⟨.minus, _, rfl, rfl⟩
  · exact ⟨.none, _, rfl, rfl⟩

theorem exponent?_text (e : Option Exponent) :
    exponent? (Exponent.text e) = some (Exponent.value e) := by
  cases e with
  | none => rfl
  | some e =>
    have hdigits : e.digits.all Char.isDigit = true := List.all_eq_true.2 e.isDigits.2
    rw [Exponent.text, exponent?, cutSign_append e.sign e.isDigits.signless]
    simp only [if_pos (And.intro e.isMark (And.intro e.isDigits.1 hdigits)), value_eq]
    rfl

theorem exists_exponent {s : List Char} {k : Int} (h : exponent? s = some k) :
    ∃ e, Exponent.text e = s ∧ Exponent.value e = k := by
  cases s with
  | nil => exact ⟨none, rfl, Option.some.inj h⟩
  | cons mark r =>
    obtain ⟨sign, digits, rfl, hsign⟩ := exists_sign r
    rw [exponent?, hsign] at h
    simp only at h
    split at h
    next hvalid =>
      have hdigits : IsDigits digits := ⟨hvalid.2.1, List.all_eq_true.1 hvalid.2.2⟩
      refine ⟨some ⟨mark, sign, digits, hvalid.1, hdigits⟩, rfl, ?_⟩
      rw [← Option.some.inj h, value_eq]
      rfl
    next => cases h

theorem span_append {s r : List Char} (hs : ∀ c ∈ s, c.isDigit = true)
    (hr : ∀ c ∈ r.head?, c.isDigit = false) : (s ++ r).span Char.isDigit = (s, r) := by
  rw [List.span_eq_takeWhile_dropWhile, Reader.takeWhile_append_of_head hs hr,
    Reader.dropWhile_append_of_head hs hr]

theorem not_isDigit_rest (n : Numeral) :
    ∀ c ∈ (n.fractionText ++ Exponent.text n.exponent).head?, c.isDigit = false := by
  intro c hc
  rcases n.head_rest c hc with rfl | rfl | rfl <;> rfl

theorem cutFraction_append (n : Numeral) :
    cutFraction (n.fractionText ++ Exponent.text n.exponent) =
      (n.fraction.getD [], Exponent.text n.exponent) := by
  have hhead := Exponent.head_text n.exponent
  rw [Numeral.fractionText]
  cases hf : n.fraction with
  | none =>
    show cutFraction (Exponent.text n.exponent) = ([], Exponent.text n.exponent)
    unfold cutFraction
    split
    -- an exponent does not begin with a point
    next heq => exact absurd (hhead '.' (heq ▸ rfl)) (by decide)
    next => rfl
  | some f =>
    have hdigits : ∀ c ∈ f, c.isDigit = true := fun c hc =>
      n.isDigits.2 c (List.mem_append_right _ (by rw [hf]; exact hc))
    exact span_append hdigits fun c hc => by
      rcases hhead c hc with rfl | rfl <;> rfl

/-- What is cut off is a point and digits, or nothing. -/
theorem exists_fraction (s : List Char) : ∃ fraction : Option (List Char),
    s = fraction.elim [] ('.' :: ·) ++ (cutFraction s).2 ∧ fraction.getD [] = (cutFraction s).1 ∧
      ∀ c ∈ fraction.getD [], c.isDigit = true := by
  unfold cutFraction
  split
  next r =>
    rw [List.span_eq_takeWhile_dropWhile]
    refine ⟨some (r.takeWhile Char.isDigit), ?_, rfl, fun c hc => List.mem_takeWhile_imp hc⟩
    exact congrArg ('.' :: ·) List.takeWhile_append_dropWhile.symm
  next => exact ⟨none, rfl, rfl, by simp⟩

theorem scientific?_unsigned (n : Numeral) : scientific? n.unsigned = some n.scientific := by
  have hwhole : ∀ c ∈ n.whole, c.isDigit = true := fun c hc =>
    n.isDigits.2 c (List.mem_append_left _ hc)
  have hdigit : ¬(n.whole.isEmpty = true ∧ (n.fraction.getD []).isEmpty = true) := by
    rw [List.isEmpty_iff, List.isEmpty_iff, ← List.append_eq_nil_iff]
    exact n.isDigits.1
  rw [Numeral.unsigned, scientific?, span_append hwhole (not_isDigit_rest n)]
  simp only [cutFraction_append, if_neg hdigit, exponent?_text, Option.map_some, value_eq]
  rfl

/-- What is read as digits, a point and an exponent is a decimal number with any sign before it. -/
theorem exists_numeral {s : List Char} {d : Scientific} (sign : Sign) (h : scientific? s = some d) :
    ∃ n : Numeral, n.sign = sign ∧ n.unsigned = s ∧ n.scientific = d := by
  rw [scientific?, List.span_eq_takeWhile_dropWhile] at h
  simp only at h
  split at h
  · cases h
  next hdigit =>
    obtain ⟨k, hk, rfl⟩ := Option.map_eq_some_iff.1 h
    obtain ⟨e, he, rfl⟩ := exists_exponent hk
    obtain ⟨fraction, hrest, hfraction, hdigits⟩ := exists_fraction (s.dropWhile Char.isDigit)
    rw [← hfraction] at hdigit ⊢
    have hall : IsDigits (s.takeWhile Char.isDigit ++ fraction.getD []) := by
      refine ⟨fun hnil => ?_, fun c hc => ?_⟩
      · rw [List.append_eq_nil_iff] at hnil
        simp [hnil] at hdigit
      · exact (List.mem_append.1 hc).elim List.mem_takeWhile_imp (hdigits c)
    refine ⟨⟨sign, _, fraction, e, hall⟩, rfl, ?_, ?_⟩
    · rw [Numeral.unsigned, Numeral.fractionText, he, ← hrest, List.takeWhile_append_dropWhile]
    · rw [Numeral.scientific, value_eq]

end Decimal

/-! What is written is rounded to the nearest double. -/

namespace Scientific

open Binary64

variable (d : Scientific)

theorem zpow_eq_div (e : ℤ) : (10 : ℚ) ^ e = 10 ^ e.toNat / 10 ^ (-e).toNat := by
  obtain ⟨k, rfl | rfl⟩ := e.eq_nat_or_neg
  · simp
  · simp

/-- The exponent of the leading digit bounds the number on both sides. -/
theorem bounds (h : d.significand ≠ 0) :
    10 ^ d.leadingExponent ≤ d.magnitude ∧ d.magnitude < 10 ^ (d.leadingExponent + 1) := by
  have hcount : 0 < digitCount d.significand := Nat.length_toDigits_pos
  have hlow : 10 ^ (digitCount d.significand - 1) ≤ d.significand := by
    by_contra hlt
    by_cases hone : digitCount d.significand = 1
    · rw [hone] at hlt
      omega
    · have := (Nat.length_toDigits_le_iff (by decide) (by omega)).2 (not_le.1 hlt)
      rw [← digitCount] at this
      omega
  have hhigh : d.significand < 10 ^ digitCount d.significand :=
    (Nat.length_toDigits_le_iff (by decide) hcount).1 le_rfl
  have hpos : (0 : ℚ) < 10 ^ d.exponent := by positivity
  have hlead : d.leadingExponent = ((digitCount d.significand - 1 : Nat) : ℤ) + d.exponent := by
    rw [leadingExponent]
    omega
  have hnext : d.leadingExponent + 1 = (digitCount d.significand : ℤ) + d.exponent := by
    rw [leadingExponent]
    omega
  rw [hnext, hlead, zpow_add₀ (by norm_num), zpow_add₀ (by norm_num), zpow_natCast, zpow_natCast,
    magnitude]
  exact ⟨mul_le_mul_of_nonneg_right (by exact_mod_cast hlow) hpos.le,
    mul_lt_mul_of_pos_right (by exact_mod_cast hhigh) hpos⟩

/-- Below 10^-330 a number is less than half a unit. -/
theorem magnitude_le_half (h : d.significand = 0 ∨ d.leadingExponent < -330) :
    d.magnitude * unitsInOne ≤ 1 / 2 := by
  by_cases hzero : d.significand = 0
  · rw [magnitude, hzero, Nat.cast_zero, zero_mul, zero_mul]
    norm_num
  · have hlead := h.resolve_left hzero
    have hpower : (2 : ℚ) * unitsInOne ≤ 10 ^ 330 := by
      have : 2 * unitsInOne ≤ 10 ^ 330 := by decide +kernel
      exact_mod_cast this
    have hpos : (0 : ℚ) < 10 ^ 330 := pow_pos (by norm_num) 330
    have hsmall : d.magnitude ≤ 10 ^ (-(330 : Nat) : ℤ) :=
      (d.bounds hzero).2.le.trans (zpow_le_zpow_right₀ (by norm_num) (by omega))
    calc d.magnitude * unitsInOne
      _ ≤ 10 ^ (-(330 : Nat) : ℤ) * unitsInOne :=
        mul_le_mul_of_nonneg_right hsmall unitsInOne_pos.le
      _ = unitsInOne / 10 ^ 330 := by rw [zpow_neg, zpow_natCast, inv_mul_eq_div]
      _ ≤ 1 / 2 := by
        rwa [div_le_div_iff₀ hpos two_pos, one_mul, mul_comm]

/-- From 10^310 on a number is not below 2^1024. -/
theorem le_magnitude (hzero : d.significand ≠ 0) (h : 310 ≤ d.leadingExponent) :
    2 ^ 1024 ≤ d.magnitude := by
  have hpower : (2 : ℚ) ^ 1024 ≤ 10 ^ 310 := by
    have : 2 ^ 1024 ≤ 10 ^ 310 := by decide +kernel
    exact_mod_cast this
  calc (2 : ℚ) ^ 1024
    _ ≤ 10 ^ ((310 : Nat) : ℤ) := by rwa [zpow_natCast]
    _ ≤ d.magnitude := (zpow_le_zpow_right₀ (by norm_num) h).trans (d.bounds hzero).1

theorem magnitude_nonneg : 0 ≤ d.magnitude := mul_nonneg (Nat.cast_nonneg _) (by positivity)

/-- The bounds on the exponent are wide enough: what lies beyond them is zero or infinite. -/
theorem nearest_toBinary64 (negative : Bool) :
    Nearest negative d.magnitude (d.toBinary64 negative) := by
  unfold toBinary64
  simp only
  split
  next hzero => exact nearest_zero negative d.magnitude_nonneg (d.magnitude_le_half hzero)
  next hnonzero =>
    rw [not_or] at hnonzero
    split
    next hlarge => exact nearest_infinity negative (d.le_magnitude hnonzero.1 hlarge)
    next =>
      have hquotient : d.magnitude = (d.significand * Nat.pow 10 d.exponent.toNat : Nat) /
          (Nat.pow 10 (-d.exponent).toNat : Nat) := by
        rw [magnitude, zpow_eq_div, Nat.pow_eq, Nat.pow_eq, mul_div_assoc']
        push_cast
        rfl
      rw [hquotient]
      exact nearest_nearest negative _ (Nat.pow_pos (by decide))

end Scientific

namespace Numeral

/-- Whether a double is nearest to what is written. -/
def Nearest (n : Numeral) (x : Binary64) : Prop := Binary64.Nearest n.sign.negative n.magnitude x

theorem nearest_iff (n : Numeral) {x : Binary64} :
    n.Nearest x ↔ n.scientific.toBinary64 n.sign.negative = x := by
  have h := n.scientific.nearest_toBinary64 n.sign.negative
  rw [magnitude_scientific] at h
  exact ⟨h.eq, fun hx => hx ▸ h⟩

theorem existsUnique_nearest (n : Numeral) : ∃! x, n.Nearest x := by
  refine Binary64.existsUnique_nearest n.sign.negative ?_
  rw [← magnitude_scientific]
  exact n.scientific.magnitude_nonneg

/-- A text is the writing of one number only. -/
theorem magnitude_congr {m n : Numeral} (h : m.text = n.text) : m.magnitude = n.magnitude := by
  have hsign : (m.sign.negative, m.unsigned) = (n.sign.negative, n.unsigned) := by
    rw [← Decimal.cutSign_append m.sign m.signless_unsigned,
      ← Decimal.cutSign_append n.sign n.signless_unsigned]
    exact congrArg Decimal.cutSign h
  have hunsigned : m.unsigned = n.unsigned := congrArg Prod.snd hsign
  have hscientific : m.scientific = n.scientific := by
    rw [← Option.some_inj, ← Decimal.scientific?_unsigned, ← Decimal.scientific?_unsigned, hunsigned]
  rw [← magnitude_scientific, ← magnitude_scientific, hscientific]

theorem exists_digit (n : Numeral) : ∃ c ∈ n.text, c.isDigit = true := by
  obtain ⟨c, hc⟩ := List.exists_mem_of_ne_nil _ n.isDigits.1
  refine ⟨c, ?_, n.isDigits.2 c hc⟩
  rw [text, unsigned, fractionText]
  cases hf : n.fraction with
  | none => simp_all
  | some f =>
    rw [hf] at hc
    rcases List.mem_append.1 hc with hc | hc <;> simp_all

/-- A whole number is a decimal number. -/
theorem exists_of_isInteger {s : List Char} {k : Int} (h : IsInteger s k) :
    ∃ n : Numeral, n.text = s ∧ n.magnitude = |k| := by
  obtain ⟨sign, digits, rfl, hdigits, rfl⟩ := h
  refine ⟨⟨sign, digits, none, none, by simpa using hdigits⟩, ?_, ?_⟩
  · simp [text, unsigned, fractionText, Exponent.text]
  · have hvalue : |sign.apply (digitsValue digits)| = digitsValue digits := by
      rw [Sign.apply]
      split <;> simp
    rw [hvalue]
    simp [magnitude, Exponent.value, digitsValue]

end Numeral

theorem Decimal.isFinite_word? {negative : Bool} {s : List Char} {x : Binary64}
    (h : word? negative s = some x) : x.isFinite = false := by
  rw [word?] at h
  split at h
  · rw [← Option.some.inj h]
    cases negative <;> decide +kernel
  · split at h
    · rw [← Option.some.inj h]
      decide +kernel
    · cases h

/-- A finite double is read from the decimal numbers to which it is nearest, and from nothing else. -/
theorem readBinary64?_eq_some_iff {s : String} {x : Binary64} (hx : x.isFinite = true) :
    readBinary64? s = some x ↔ ∃ n : Numeral, n.text = s.toList ∧ n.Nearest x := by
  simp only [Numeral.nearest_iff]
  constructor
  · intro h
    obtain ⟨sign, r, hs, hsign⟩ := Decimal.exists_sign s.toList
    rw [readBinary64?, hsign] at h
    simp only at h
    cases hd : Decimal.scientific? r with
    | none =>
      rw [hd] at h
      rw [Decimal.isFinite_word? h] at hx
      cases hx
    | some d =>
      rw [hd] at h
      obtain ⟨n, rfl, rfl, rfl⟩ := Decimal.exists_numeral sign hd
      exact ⟨n, hs.symm, Option.some.inj h⟩
  · rintro ⟨n, hs, rfl⟩
    rw [readBinary64?, ← hs, Numeral.text, Decimal.cutSign_append n.sign n.signless_unsigned]
    simp only [Decimal.scientific?_unsigned]

end BoundSql
