/-! The declared type of a column. A declaration begins with the words of the type, perhaps with a
size in parentheses; the first word of a constraint ends it. Blanks and comments separate words, and
a word may be quoted. The type is the text from the first of its words to the last. -/

namespace BoundSql.Sqlite

/-- The pieces of a declaration by what they are. -/
inductive TokenKind where
  | blank
  | word
  | quoted
  | sign
  deriving DecidableEq

namespace TokenKind

/-- White space between words. -/
def isSpace (c : Char) : Bool := c = ' ' || c = '\t' || c = '\n' || c = '\x0c' || c = '\r'

/-- White space that goes on: a vertical tab may follow other white space, but not begin it. -/
def isSpaceOrTab (c : Char) : Bool := isSpace c || c = '\x0b'

/-- Letters, digits, underscores, dollar signs and all characters beyond ASCII make up words. -/
def isWordCharacter (c : Char) : Bool :=
  c.isAlphanum || c = '_' || c = '$' || 0x80 ≤ c.toNat

/-- The characters that open a quoted word. -/
def opensQuoted (c : Char) : Bool := c = '\'' || c = '\"' || c = '\x60' || c = '['

/-- The character that closes what a quote opened. -/
def closing (c : Char) : Char := if c = '[' then ']' else c

/-- The length of a comment after its opening, up to an asterisk and a slash or to the end. -/
def commentLength : List Char → Nat
  | [] => 0
  | '*' :: '/' :: _ => 2
  | _ :: r => commentLength r + 1

/-- The length of a quoted word after its opening; a doubled quote does not close it, but the first
square bracket does. -/
def quotedLength (close : Char) : List Char → Nat
  | [] => 0
  | [_] => 1
  | c :: d :: r =>
    if c ≠ close then quotedLength close (d :: r) + 1
    else if d = close ∧ close ≠ ']' then quotedLength close r + 2
    else 1

/-- The kind of the piece that begins with a character, and the length of what follows of it. A byte
order mark between words is a blank. -/
def first (c : Char) (r : List Char) : TokenKind × Nat :=
  if isSpace c then (.blank, (r.takeWhile isSpaceOrTab).length)
  else if c = '\ufeff' then (.blank, 0)
  else if c = '-' ∧ r.head? = some '-' then (.blank, (r.takeWhile (· ≠ '\n')).length)
  else if c = '/' ∧ r.head? = some '*' then (.blank, commentLength (r.drop 1) + 1)
  else if opensQuoted c then (.quoted, quotedLength (closing c) r)
  else if isWordCharacter c then (.word, (r.takeWhile isWordCharacter).length)
  else (.sign, 0)

/-- The pieces of a text in their order. -/
def split : List Char → List (TokenKind × List Char)
  | [] => []
  | c :: r =>
    let (kind, n) := first c r
    (kind, c :: r.take n) :: split (r.drop n)
termination_by s => s.length
decreasing_by simp only [List.length_cons, List.length_drop]; omega

end TokenKind

/-- The words with which the constraints of a column begin. -/
def constraintWords : List String :=
  ["CONSTRAINT", "PRIMARY", "NOT", "NULL", "UNIQUE", "CHECK", "DEFAULT", "COLLATE", "REFERENCES",
    "DEFERRABLE", "AS"]

namespace Declaration

/-- The text in capital letters. -/
def upper (s : List Char) : String := String.ofList (s.map Char.toUpper)

/-- Whether a piece may stand in the name of a type: a blank, or a word that is quoted or begins no
constraint. -/
def isOfName : TokenKind × List Char → Bool
  | (.blank, _) | (.quoted, _) => true
  | (.word, s) => upper s ∉ constraintWords
  | (.sign, _) => false

/-- A text without the white space at its end. -/
def trimmed (s : List Char) : List Char := (s.reverse.dropWhile TokenKind.isSpaceOrTab).reverse

/-- The text of the type: up to its last word, or to the parenthesis that closes its size. The
declaration stands behind a space, so that a vertical tab may begin it. -/
def typeText (d : List Char) : List Char :=
  let pieces := (TokenKind.split (' ' :: d)).dropWhile (·.1 = .blank)
  let name := pieces.takeWhile isOfName
  match pieces.drop name.length with
  | (.sign, ['(']) :: rest =>
    (name.flatMap (·.2)) ++ '(' :: (rest.takeWhile (·.2 ≠ [')'])).flatMap (·.2) ++ [')']
  | _ => (name.reverse.dropWhile (·.1 = .blank)).reverse.flatMap (·.2)

/-- Takes a word from the end of a text, in any letter case, and the white space before it. -/
def dropWord? (word : String) (s : List Char) : Option (List Char) :=
  let n := s.length - word.length
  if word.length ≤ s.length ∧ upper (s.drop n) = word then some (trimmed (s.take n)) else none

/-- The words that mark a computed column belong to no type, although they may stand after one. -/
def withoutMark (s : List Char) : List Char :=
  if s.length < 16 then s
  else
    match dropWord? "ALWAYS" s with
    | none => s
    | some s => (dropWord? "GENERATED" s).getD s

/-- Takes away a first and a last character when the first is a quote and no other follows. -/
def stripped : List Char → List Char
  | c :: d :: r =>
    let inner := (d :: r).dropLast
    if TokenKind.opensQuoted c ∧ ¬inner.any TokenKind.opensQuoted then inner else c :: d :: r
  | s => s

/-- The text up to the closing quote, where a doubled quote stands for one. -/
def untilClosed (close : Char) : List Char → List Char
  | [] => []
  | [c] => if c = close then [] else [c]
  | c :: d :: r =>
    if c ≠ close then c :: untilClosed close (d :: r)
    else if d = close then c :: untilClosed close r
    else []

/-- The text of the quoted word with which a type begins, if it begins with one. -/
def unquoted : List Char → List Char
  | c :: r => if TokenKind.opensQuoted c then untilClosed (TokenKind.closing c) r else c :: r
  | [] => []

/-- The type that a declaration gives to its column. -/
def type (d : String) : List Char := unquoted (stripped (withoutMark (typeText d.toList)))

/-- Whether the declared type is the one for truth values, in any letter case. -/
def isBoolean (d : String) : Bool := upper (type d) = "BOOLEAN" || upper (type d) = "BOOL"

/-- Whether the words for a key stand in a declaration, other than for one in descending order. -/
def hasKey : List (TokenKind × List Char) → Bool
  | (.word, w) :: (.word, v) :: rest =>
    (upper w = "PRIMARY" && upper v = "KEY" && rest.head?.all (upper ·.2 ≠ "DESC")) ||
      hasKey ((.word, v) :: rest)
  | _ :: rest => hasKey rest
  | [] => false

/-- Whether the column holds the number under which a row is stored: it is the key of its table, and
its declared type is the one for whole numbers. -/
def isRowNumber (d : String) : Bool :=
  upper (stripped (withoutMark (typeText d.toList))) = "INTEGER" &&
    hasKey ((TokenKind.split d.toList).filter (·.1 ≠ .blank))

example : isRowNumber "integer primary key" ∧ ¬isRowNumber "INT PRIMARY KEY" ∧
    ¬isRowNumber "INTEGER PRIMARY KEY DESC" := by
  decide +kernel

example : isBoolean "BOOLEAN" ∧ isBoolean "bool /* flag */ NOT NULL" ∧ isBoolean "[Boolean]" ∧
    isBoolean "\x0bBOOL" ∧ ¬isBoolean "BOOLEAN(1)" ∧ ¬isBoolean "NOT NULL" := by
  decide +kernel

end Declaration

end BoundSql.Sqlite
