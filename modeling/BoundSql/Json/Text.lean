import BoundSql.Error
import BoundSql.Row

/-! The interchange form as text, without blanks. In a string, quotes, backslashes and the controls
below the space are escaped, so that the text of a row stays on one line. -/

namespace BoundSql

namespace Json

/-- How one character of a string is written. -/
def char (c : Char) : List Char :=
  if c = '\"' then ['\\', '\"']
  else if c = '\\' then ['\\', '\\']
  else if c = '\x08' then ['\\', 'b']
  else if c = '\x0c' then ['\\', 'f']
  else if c = '\n' then ['\\', 'n']
  else if c = '\r' then ['\\', 'r']
  else if c = '\t' then ['\\', 't']
  else if c < ' ' then
    ['\\', 'u', '0', '0', Nat.digitChar (c.toNat / 16), Nat.digitChar (c.toNat % 16)]
  else [c]

/-- A string between its quotes. -/
def token (s : String) : String := String.ofList ('\"' :: (s.toList.flatMap char ++ ['\"']))

/-- The text of a value; a float is written as in messages. -/
def text : Json → String
  | null => "null"
  | boolean b => if b then "true" else "false"
  | integer n => toString n.toInt
  | number x => Layout.message.text x
  | string s => token s
  | array bytes => "[" ++ ",".intercalate (bytes.map fun b => toString b.toNat) ++ "]"

end Json

/-- The text of an object. -/
def JsonObject.text (o : JsonObject) : String :=
  "\x7b" ++ ",".intercalate (o.map fun (key, v) => Json.token key ++ ":" ++ v.text) ++ "\x7d"

end BoundSql
