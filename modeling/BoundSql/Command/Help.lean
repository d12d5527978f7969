import BoundSql.Command.Arguments

/-! The help of a command: what it is for, how it is used, and its options in two columns. Where the
names leave too little of a line to a description, all descriptions stand on lines of their own. -/

namespace BoundSql.Command

/-- What the help of a command says. -/
structure Help where
  about : String
  usage : String
  /-- The commands below it, each with its description. -/
  commands : List (String × String) := []
  /-- The arguments that are no options, each with its description. -/
  arguments : List (String × String) := []
  /-- The options as they are written, each with its description. -/
  options : List (String × String) := []

/-- An option as its line of the help begins. -/
def Flag.term {ο : Type} (f : Flag ο) : String :=
  (match f.letter with
    | some c => "-" ++ c.toString ++ ", "
    | none => "    ") ++ f.usage

/-- Options with their descriptions. -/
def Flag.rows {ο : Type} (flags : List (Flag ο)) : List (String × String) :=
  flags.map fun f => (f.term, f.about)

namespace Help

/-- The length of a line. -/
def lineWidth : Nat := 100

/-- Two columns, indented, the first as wide as its widest entry. -/
def columns (rows : List (String × String)) : String :=
  let width := (rows.map (·.1.length)).foldl max 0
  let taken := width + 12
  let apart := 40 < taken && rows.any fun (_, about) => lineWidth < taken + about.length
  String.join (rows.map fun (term, about) =>
    "  " ++ term ++
      (if apart then "\n" ++ "".pushn ' ' 10 else "".pushn ' ' (width - term.length + 2)) ++
      about ++ "\n")

/-- A part of the help, which is left out if it has nothing to say. -/
def part (title : String) (rows : List (String × String)) : String :=
  if rows.isEmpty then "" else "\n" ++ title ++ ":\n" ++ columns rows

/-- The text of the help. -/
def text (h : Help) : String :=
  h.about ++ "\n\nUsage: " ++ h.usage ++ "\n" ++ part "Commands" h.commands ++
    part "Arguments" h.arguments ++ part "Options" h.options

end Help

/-- A call for help is answered with the help of the command it comes under. -/
def Halt.under (h : Help) : Halt → Halt
  | help => answer h.text
  | halt => halt

end BoundSql.Command
