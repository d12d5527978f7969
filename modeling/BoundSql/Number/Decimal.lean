import BoundSql.Number.Shortest

/-! Reading decimal fractions: an optional sign, digits with at most one point and at least one
digit, an optional exponent. The words for infinity and for no number are read in any letter case. -/

namespace BoundSql

namespace Scientific

/-- The nearest double. A value of 10^310 or more is infinite and one below 10^-330 is zero, so no
power of ten outside that range is computed. -/
def toBinary64 (negative : Bool) (d : Scientific) : Binary64 :=
  let leading := d.leadingExponent
  if d.significand = 0 ∨ leading < -330 then .zero negative
  else if 310 ≤ leading then .infinity negative
  else .nearest negative (d.significand * Nat.pow 10 d.exponent.toNat)
    (Nat.pow 10 (-d.exponent).toNat)

end Scientific

namespace Decimal

/-- The number written by ASCII digits. -/
def value (digits : List Char) : Nat :=
  digits.foldl (fun n c => 10 * n + (c.toNat - '0'.toNat)) 0

/-- Whether there is a minus sign, and the text after the sign. -/
def cutSign : List Char → Bool × List Char
  | '+' :: r => (false, r)
  | '-' :: r => (true, r)
  | s => (false, s)

/-- No exponent is zero; a mark must be followed by digits. -/
def exponent? : List Char → Option Int
  | [] => some 0
  | mark :: r =>
    let (negative, digits) := cutSign r
    if (mark = 'e' ∨ mark = 'E') ∧ digits ≠ [] ∧ digits.all Char.isDigit then
      some (if negative then -Int.ofNat (value digits) else Int.ofNat (value digits))
    else none

/-- The digits after the point, if there is one, and the rest. -/
def cutFraction : List Char → List Char × List Char
  | '.' :: r => r.span Char.isDigit
  | s => ([], s)

/-- An unsigned decimal. -/
def scientific? (s : List Char) : Option Scientific :=
  let (whole, r) := s.span Char.isDigit
  let (fraction, r) := cutFraction r
  if whole.isEmpty ∧ fraction.isEmpty then none
  else (exponent? r).map fun e => ⟨value (whole ++ fraction), e - fraction.length⟩

/-- The words that stand for infinity and for no number. -/
def word? (negative : Bool) (s : List Char) : Option Binary64 :=
  let lower := s.map Char.toLower
  if lower = "inf".toList ∨ lower = "infinity".toList then some (.infinity negative)
  else if lower = "nan".toList then some .nan
  else none

end Decimal

/-- The double that a text denotes. -/
def readBinary64? (s : String) : Option Binary64 :=
  let (negative, r) := Decimal.cutSign s.toList
  match Decimal.scientific? r with
  | some d => some (d.toBinary64 negative)
  | none => Decimal.word? negative r

end BoundSql
