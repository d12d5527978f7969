import BoundSql.Text.Terminal

/-! What can be wrong with the arguments of a command, and what is said about it. Values and options
are set off from the rest; a complaint that is written to no terminal loses this, and with it every
control sequence that a value holds. -/

namespace BoundSql.Command

open Terminal (highlighted)

/-- Why the arguments are refused; options are named as the usage names them. -/
inductive Problem where
  | invalidValue (value : String) (option : String) (reason : String)
  | missingValue (option : String)
  | repeated (option : String)
  | missing (option : String)
  | unexpectedValue (value : String) (option : String)
  | unexpected (argument : String)
  | unknownCommand (name : String)
  | noCommand (commands : List String)
  /-- Nothing is given at all, and what could be is described. -/
  | noArguments (help : String)
  deriving DecidableEq

/-- A text between apostrophes, set off. -/
def quoted (s : String) : String := "'" ++ highlighted s ++ "'"

namespace Problem

/-- What is said about a problem. -/
def message : Problem → String
  | invalidValue value option reason =>
    "error: invalid value " ++ quoted value ++ " for " ++ quoted option ++ ": " ++ reason
  | missingValue option =>
    "error: a value is required for " ++ quoted option ++ " but none was supplied"
  | repeated option =>
    "error: the argument " ++ quoted option ++ " cannot be used multiple times"
  | missing option =>
    "error: the following required arguments were not provided:\n  " ++ highlighted option
  | unexpectedValue value option =>
    "error: unexpected value " ++ quoted value ++ " for " ++ quoted option ++
      " found; no more were expected"
  | unexpected argument => "error: unexpected argument " ++ quoted argument ++ " found"
  | unknownCommand name => "error: unrecognized subcommand " ++ quoted name
  | noCommand commands =>
    "error: " ++ quoted "sqlkit" ++ " requires a subcommand but one was not provided\n" ++
      "  [subcommands: " ++ ", ".intercalate commands ++ "]"
  | noArguments help => help

/-- Where more is to be learned. -/
def hint : String := "\n\nFor more information, try " ++ quoted "--help" ++ ".\n"

/-- The whole complaint about a problem, without control sequences. -/
def complaint (p : Problem) : String :=
  match p with
  | noArguments help => help
  | _ => Terminal.plain (p.message ++ hint)

end Problem

end BoundSql.Command
