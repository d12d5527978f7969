import BoundSql.Text.Unprintable

/-! Text as it is listed in logs: between double quotes on one line, with a backslash before a
quote or a backslash, short names for the common controls, and numbers for what cannot be seen. -/

namespace BoundSql.Escaped

/-- A character written by its number, in lower-case hexadecimal digits. -/
def number (c : Char) : List Char :=
  '\\' :: 'u' :: '\x7b' :: (Nat.toDigits 16 c.toNat ++ ['\x7d'])

/-- How one character is written. -/
def char (c : Char) : List Char :=
  if c = '\"' then ['\\', '\"']
  else if c = '\\' then ['\\', '\\']
  else if c = '\n' then ['\\', 'n']
  else if c = '\r' then ['\\', 'r']
  else if c = '\t' then ['\\', 't']
  else if c = '\x00' then ['\\', '0']
  else if isUnprintable c then number c
  else [c]

/-- The quoted form of a text. -/
def token (s : String) : String := String.ofList ('\"' :: (s.toList.flatMap char ++ ['\"']))

@[simp] theorem toList_token (s : String) :
    (token s).toList = '\"' :: (s.toList.flatMap char ++ ['\"']) := by simp [token]

end BoundSql.Escaped
