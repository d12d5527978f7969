import BoundSql.Value

/-! The interchange form of a row: an object with the columns as keys. Blobs become arrays of
numbers, and floats without a finite value become null. -/

namespace BoundSql

/-- The interchange form of one value. -/
inductive Json where
  | null
  | boolean (b : Bool)
  | integer (n : Int64)
  | number (x : Binary64)
  | string (s : String)
  /-- An array of small numbers. -/
  | array (bytes : List UInt8)
  deriving DecidableEq, Inhabited

/-- The interchange form of a value. -/
def Value.json : Value → Json
  | .null => .null
  | .bool b => .boolean b
  | .int n => .integer n
  | .float x => if x.isFinite then .number x else .null
  | .text s => .string s
  | .blob bytes => .array bytes

/-- Entries in ascending order of their keys, each key once. -/
abbrev JsonObject : Type := List (String × Json)

namespace JsonObject

/-- Gives a key a value, in place of the one it had. -/
def insert (key : String) (value : Json) : JsonObject → JsonObject
  | [] => [(key, value)]
  | (k, v) :: rest =>
    if key < k then (key, value) :: (k, v) :: rest
    else if key = k then (key, value) :: rest
    else (k, v) :: insert key value rest

/-- The value of a key. -/
def find? (key : String) (o : JsonObject) : Option Json := o.lookup key

end JsonObject

end BoundSql
