/-! Control sequences of terminals, and what is left of a text without them. A sequence begins with
the escape character; its next characters say of which kind it is, and with the kind how it ends.
White space inside a sequence is shown, and with it the text behind it up to the next control
character, where the sequence goes on. A string for a device is hidden as a whole; it has a head, in
which the byte that ends strings does not count yet. -/

namespace BoundSql.Terminal

/-- Where a reader stands. -/
inductive Sequence where
  /-- In the text itself. -/
  | none
  /-- Behind the escape character. -/
  | escape
  /-- In a short sequence, up to its final character. -/
  | short
  /-- In a sequence with parameters, up to its final character. -/
  | parameters
  /-- In a command to the system, up to a bell. -/
  | command
  /-- At the head of a string for a device. -/
  | device
  /-- In the parameters of a string for a device. -/
  | deviceParameters
  /-- In the function of a string for a device. -/
  | deviceFunction
  /-- In a string for a device or an application. -/
  | string
  deriving DecidableEq

/-- White space that a terminal acts on. -/
def isLayout (c : Char) : Bool := c = '\t' || c = '\n' || c = '\x0c' || c = '\r'

/-- The characters that are shown where no sequence is open. -/
def isVisible (c : Char) : Bool := isLayout c || (' ' ≤ c && c ≤ '~') || 0x80 ≤ c.toNat

/-- Whether one of the bytes of a character beyond ASCII is the one that ends a string. -/
def endsString (c : Char) : Bool := (String.utf8EncodeChar c).contains 0x9c

namespace Sequence

/-- Where a reader stands after one more character in the head of a string for a device. The head is
parameters, with or without a mark before them, and characters that name a function. A final
character ends it, and so does a mark or a parameter that comes too late. -/
def deviceHead (s : Sequence) (c : Char) : Sequence :=
  if c < ' ' ∨ '~' < c then s
  else if c < '0' then .deviceFunction
  else if (c ≤ ';' ∧ s ≠ .deviceFunction) ∨ (c ≤ '?' ∧ s = .device) then .deviceParameters
  else .string

/-- Where a reader of hidden characters stands after one more, and whether that one is shown. -/
def step (s : Sequence) (c : Char) : Sequence × Bool :=
  if c = '\x1b' then (.escape, false)
  else if c = '\x18' ∨ c = '\x1a' then (.none, false)
  else
    match s with
    | .none => (.none, isVisible c)
    | .escape =>
      if isLayout c then (.escape, true)
      else if c < ' ' ∨ '~' < c then (.escape, false)
      else if c < '0' then (.short, false)
      else if c = '[' then (.parameters, false)
      else if c = ']' then (.command, false)
      else if c = 'P' then (.device, false)
      else if c = 'X' ∨ c = '^' ∨ c = '_' then (.string, false)
      else (.none, false)
    | .short => if '0' ≤ c ∧ c ≤ '~' then (.none, false) else (.short, isLayout c)
    | .parameters => if '@' ≤ c ∧ c ≤ '~' then (.none, false) else (.parameters, isLayout c)
    | .command => (if c = '\x07' then .none else .command, false)
    | .device | .deviceParameters | .deviceFunction => (s.deviceHead c, false)
    | .string => (if endsString c then .none else .string, false)

end Sequence

/-- A reader of text with sequences. -/
structure Reader where
  /-- The sequence that is open; while text is shown it waits. -/
  sequence : Sequence := .none
  shown : Bool := false

/-- The reader after one more character, and whether that one is shown. A shown character beyond
ASCII closes the sequence that waits. -/
def Reader.step (r : Reader) (c : Char) : Reader × Bool :=
  if r.shown && isVisible c then
    ({ r with sequence := if c.toNat < 0x80 then r.sequence else .none }, true)
  else
    let (sequence, shown) := r.sequence.step c
    ({ sequence, shown }, shown)

/-- The characters that a reader shows. -/
def visible (r : Reader) : List Char → List Char
  | [] => []
  | c :: s =>
    let (r, shown) := r.step c
    if shown then c :: visible r s else visible r s

/-- A text without control characters and sequences. -/
def plain (s : String) : String := String.ofList (visible {} s.toList)

/-- A text between the sequences that set it off from its surroundings. -/
def highlighted (s : String) : String := "\x1b[1m" ++ s ++ "\x1b[0m"

example : plain "\x1bP1;2|key\u009cboard \x1bP1;2 \u009cits head\x1b\\" = "board " := by
  decide +kernel

example : plain "\x1b[31mred\x1b[0m \x1b]0;title\x07and\x01 blue" = "red and blue" := by
  decide +kernel

end BoundSql.Terminal
