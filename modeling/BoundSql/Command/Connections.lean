import BoundSql.Command.Arguments
import BoundSql.Number.Integer

/-! The number of connections that a command may open. -/

namespace BoundSql.Command.Connections

/-- The greatest number of connections. -/
def greatest : Nat := Nat.pow 2 32 - 1

/-- Reads a number of connections: a signed 64-bit number in the range of unsigned 32-bit ones. -/
def read (s : String) : Except String UInt32 := do
  let n ← (readInt64 s).mapError IntegerError.message
  let n := n.toInt
  if 0 ≤ n ∧ n ≤ greatest then return .ofNat n.toNat
  else throw (toString n ++ " is not in 0..=" ++ toString greatest)

end BoundSql.Command.Connections
