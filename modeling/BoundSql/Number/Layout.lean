import BoundSql.Number.Shortest

/-! How a double is laid out as text: near one positionally, always with a fraction, and otherwise
as a significand with one digit before the point and a power of ten. -/

namespace BoundSql

/-- The choices of one number format. -/
structure Layout where
  /-- The least leading exponent that is written positionally. -/
  positionalFrom : Int
  /-- The least larger leading exponent that is not. -/
  positionalBelow : Int
  /-- The choice between equally near decimals. -/
  tie : Tie
  /-- Whether a positive power of ten has a plus sign. -/
  plus : Bool

namespace Layout

/-- The digits with the point after the place of 10^0, filled up with zeros on either side. -/
def positional (digits : List Char) (leading : Int) : List Char :=
  if leading < 0 then
    '0' :: '.' :: (List.replicate (-leading - 1).toNat '0' ++ digits)
  else
    let whole := digits.take (leading.toNat + 1)
    let rest := digits.drop (leading.toNat + 1)
    whole ++ List.replicate (leading.toNat + 1 - whole.length) '0' ++
      '.' :: (if rest.isEmpty then ['0'] else rest)

/-- The power of ten, with its sign. -/
def exponent (l : Layout) (leading : Int) : List Char :=
  (if l.plus ∧ 0 ≤ leading then ['+'] else []) ++ (toString leading).toList

/-- One digit before the point, and no point after a single digit. -/
def withExponent (l : Layout) (digits : List Char) (leading : Int) : List Char :=
  let rest := digits.drop 1
  digits.take 1 ++ (if rest.isEmpty then [] else '.' :: rest) ++ 'e' :: l.exponent leading

/-- The text of a positive decimal. -/
def magnitude (l : Layout) (d : Scientific) : List Char :=
  let digits := d.digits
  let leading := d.leadingExponent
  if l.positionalFrom ≤ leading ∧ leading < l.positionalBelow then positional digits leading
  else l.withExponent digits leading

/-- The text of a double. -/
def text (l : Layout) (x : Binary64) : String :=
  if x.isNaN then "NaN"
  else
    let sign := if x.negative then "-" else ""
    if !x.isFinite then sign ++ "inf"
    else if x.units = 0 then sign ++ "0.0"
    else sign ++ String.ofList (l.magnitude (x.shortest l.tie))

end Layout

end BoundSql
