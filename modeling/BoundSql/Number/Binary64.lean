/-! Double precision numbers as bit patterns, with exact natural arithmetic. Every finite magnitude
is a whole number of units of 2^-1074, the least positive double, so rounding is done on naturals. -/

namespace BoundSql

/-- A double precision number, given by its sign, exponent and fraction bits. -/
structure Binary64 where
  bits : UInt64
  deriving DecidableEq, Inhabited

/-- The quotient rounded to the nearest whole number, a half to the even one. -/
def roundDiv (num den : Nat) : Nat :=
  let q := num / den
  let r := num % den
  if 2 * r < den then q else if den < 2 * r then q + 1 else q + q % 2

namespace Binary64

/-- The eleven exponent bits. -/
def exponentField (x : Binary64) : Nat := x.bits.toNat / Nat.pow 2 52 % Nat.pow 2 11

/-- The fifty-two fraction bits. -/
def fraction (x : Binary64) : Nat := x.bits.toNat % Nat.pow 2 52

/-- Whether the sign bit is set, as it is in -0.0. -/
def negative (x : Binary64) : Bool := Nat.pow 2 63 ≤ x.bits.toNat

def isFinite (x : Binary64) : Bool := x.exponentField ≠ 2047

def isNaN (x : Binary64) : Bool := x.exponentField = 2047 && x.fraction ≠ 0

/-- The distance in units from a finite magnitude to the next larger one. -/
def spacing (x : Binary64) : Nat := Nat.pow 2 (x.exponentField - 1)

/-- The magnitude of a finite number in units of 2^-1074. -/
def units (x : Binary64) : Nat :=
  if x.exponentField = 0 then x.fraction else (Nat.pow 2 52 + x.fraction) * x.spacing

def ofParts (negative : Bool) (exponentField fraction : Nat) : Binary64 :=
  ⟨UInt64.ofNat ((if negative then Nat.pow 2 63 else 0) + exponentField * Nat.pow 2 52 + fraction)⟩

def infinity (negative : Bool) : Binary64 := ofParts negative 2047 0

def nan : Binary64 := ofParts false 2047 (Nat.pow 2 51)

def zero (negative : Bool) : Binary64 := ofParts negative 0 0

/-- The number of a magnitude with at most 53 significant bits; too large a one is infinite. -/
def ofUnits (negative : Bool) (units : Nat) : Binary64 :=
  if units < Nat.pow 2 52 then ofParts negative 0 units
  else
    let scale := units.log2 - 52
    if 2046 ≤ scale then infinity negative
    else ofParts negative (scale + 1) (units / Nat.pow 2 scale - Nat.pow 2 52)

/-- The quotient in units, rounded to 53 significant bits, a half to the even side. -/
def roundUnits (num den : Nat) : Nat :=
  let scaled := num * Nat.pow 2 1074
  let whole := scaled / den
  if whole < Nat.pow 2 53 then roundDiv scaled den
  else
    let step := Nat.pow 2 (whole.log2 - 52)
    roundDiv scaled (den * step) * step

/-- The double nearest to a quotient of naturals. -/
def nearest (negative : Bool) (num den : Nat) : Binary64 := ofUnits negative (roundUnits num den)

/-- The double nearest to a whole number. -/
def ofInt (n : Int) : Binary64 := nearest (n < 0) n.natAbs 1

example : (ofInt 1).bits = 0x3ff0000000000000 := by decide +kernel
example : (ofInt (2 ^ 53 + 1)).bits = (ofInt (2 ^ 53)).bits := by decide +kernel
example : (nearest false 1 10).bits = 0x3fb999999999999a := by decide +kernel

end Binary64

/-- A single precision number, given by its sign, exponent and fraction bits. -/
structure Binary32 where
  bits : UInt32
  deriving DecidableEq, Inhabited

namespace Binary32

/-- The same number in double precision; a unit of 2^-149 is 2^925 of the smaller units. -/
def widen (x : Binary32) : Binary64 :=
  let negative : Bool := Nat.pow 2 31 ≤ x.bits.toNat
  let exponent := x.bits.toNat / Nat.pow 2 23 % Nat.pow 2 8
  let fraction := x.bits.toNat % Nat.pow 2 23
  if exponent = 255 then if fraction = 0 then .infinity negative else .nan
  else if exponent = 0 then .ofUnits negative (fraction * Nat.pow 2 925)
  else .ofUnits negative ((Nat.pow 2 23 + fraction) * Nat.pow 2 (exponent - 1) * Nat.pow 2 925)

example : (widen ⟨1⟩).bits = 0x36a0000000000000 := by decide +kernel

end Binary32

end BoundSql
