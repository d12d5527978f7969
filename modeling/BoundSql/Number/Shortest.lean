import BoundSql.Number.Binary64

/-! The fewest decimal digits that read back as a given double, and of those the nearest ones. All
comparisons are between naturals: magnitudes are taken in units of 2^-1076, a quarter of the unit. -/

namespace BoundSql

/-- A nonnegative decimal number: a significand times a power of ten. -/
structure Scientific where
  significand : Nat
  exponent : Int
  deriving DecidableEq

/-- Which of two equally near decimals is taken. -/
inductive Tie where
  | up
  | even
  deriving DecidableEq

/-- The number of decimal digits of a natural. -/
def digitCount (n : Nat) : Nat := (Nat.toDigits 10 n).length

namespace Scientific

/-- The digits of the significand without the zeros at its end. -/
def digits (d : Scientific) : List Char :=
  ((Nat.toDigits 10 d.significand).reverse.dropWhile (· = '0')).reverse

/-- The exponent of ten that belongs to the leading digit. -/
def leadingExponent (d : Scientific) : Int := d.exponent + digitCount d.significand - 1

end Scientific

/-- The magnitudes that read back as one double, in units of 2^-1076. -/
structure Bracket where
  low : Nat
  middle : Nat
  high : Nat
  closed : Bool

namespace Bracket

/-- Below a power of two the neighbour is half as far away; the ends belong to an even fraction. -/
def of (x : Binary64) : Bracket :=
  let below := if x.fraction = 0 ∧ 1 < x.exponentField then x.spacing else 2 * x.spacing
  ⟨4 * x.units - below, 4 * x.units, 4 * x.units + 2 * x.spacing, x.fraction % 2 = 0⟩

/-- Whether `num / den` units of 2^-1076 lie between the ends. -/
def holds (b : Bracket) (num den : Nat) : Bool :=
  if b.closed then b.low * den ≤ num && num ≤ b.high * den
  else b.low * den < num && num < b.high * den

/-- The nearer of the two multiples of a power of ten around the middle that lie in the bracket. -/
def onGrid (b : Bracket) (tie : Tie) (exponent : Int) : Option Scientific :=
  let step := Nat.pow 10 exponent.toNat * Nat.pow 2 1076
  let den := Nat.pow 10 (-exponent).toNat
  let floor := b.middle * den / step
  let rest := 2 * (b.middle * den % step)
  let upIsNearer := step < rest || (step = rest && (tie = .up || floor % 2 = 1))
  match b.holds (floor * step) den, b.holds ((floor + 1) * step) den with
  | true, true => some ⟨if upIsNearer then floor + 1 else floor, exponent⟩
  | true, false => some ⟨floor, exponent⟩
  | false, true => some ⟨floor + 1, exponent⟩
  | false, false => none

end Bracket

/-- The shortest decimal that reads back as the magnitude of a finite double. -/
def Binary64.shortest (x : Binary64) (tie : Tie) : Scientific :=
  let b := Bracket.of x
  let leading : Int := digitCount (b.middle * Nat.pow 10 330 / Nat.pow 2 1076) - 330
  ((List.range 17).findSome? fun n => b.onGrid tie (leading - Int.ofNat n - 1)).getD ⟨0, 0⟩

example : (Binary64.nearest false 1 10).shortest .up = ⟨1, -1⟩ := by decide +kernel
example : (Binary64.nearest false 3 10).shortest .even = ⟨3, -1⟩ := by decide +kernel
example : (Binary64.mk 1).shortest .even = ⟨5, -324⟩ := by decide +kernel
example : (Binary64.nearest false 1 (2 ^ 25)).shortest .up = ⟨29802322387695313, -24⟩ := by
  decide +kernel
example : (Binary64.nearest false 1 (2 ^ 25)).shortest .even = ⟨29802322387695312, -24⟩ := by
  decide +kernel

end BoundSql
