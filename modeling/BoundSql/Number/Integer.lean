/-! Reading decimal integers of bounded size. Digits are the ten ASCII digits, leading zeros are
allowed, and the first digit that does not fit decides between the two ways to fail. -/

namespace BoundSql

/-- Why a text is no integer of the wanted size. -/
inductive IntegerError where
  | empty
  | invalidDigit
  | tooLarge
  | tooSmall
  deriving DecidableEq

def IntegerError.message : IntegerError → String
  | .empty => "cannot parse integer from empty string"
  | .invalidDigit => "invalid digit found in string"
  | .tooLarge => "number too large to fit in target type"
  | .tooSmall => "number too small to fit in target type"

namespace Integer

/-- The value of an ASCII digit. -/
def digit? (c : Char) : Option Nat := if c.isDigit then some (c.toNat - '0'.toNat) else none

/-- Appends digits to a number; a step beyond the limit stops with the given error. -/
def readDigits (limit : Nat) (beyond : IntegerError) (n : Nat) :
    List Char → Except IntegerError Nat
  | [] => .ok n
  | c :: r =>
    match digit? c with
    | none => .error .invalidDigit
    | some d => if 10 * n + d ≤ limit then readDigits limit beyond (10 * n + d) r else .error beyond

/-- At least one digit, and no more than the limit. -/
def readNat (limit : Nat) (beyond : IntegerError) : List Char → Except IntegerError Nat
  | [] => .error .invalidDigit
  | s => readDigits limit beyond 0 s

/-- An optional plus sign and digits; a minus sign is no digit. -/
def readUnsigned (limit : Nat) : List Char → Except IntegerError Nat
  | [] => .error .empty
  | '+' :: r => readNat limit .tooLarge r
  | s => readNat limit .tooLarge s

/-- An optional sign and digits; the least number is one further from zero than the greatest. -/
def readSigned (limit : Nat) : List Char → Except IntegerError Int
  | [] => .error .empty
  | '+' :: r => (readNat limit .tooLarge r).map Int.ofNat
  | '-' :: r => (readNat (limit + 1) .tooSmall r).map fun n => -Int.ofNat n
  | s => (readNat limit .tooLarge s).map Int.ofNat

end Integer

/-- The unsigned 64-bit number that a text denotes. -/
def readUInt64 (s : String) : Except IntegerError UInt64 :=
  (Integer.readUnsigned (Nat.pow 2 64 - 1) s.toList).map UInt64.ofNat

/-- The signed 64-bit number that a text denotes. -/
def readInt64 (s : String) : Except IntegerError Int64 :=
  (Integer.readSigned (Nat.pow 2 63 - 1) s.toList).map Int64.ofInt

end BoundSql
