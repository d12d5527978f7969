import BoundSql.Command.Problem

/-! The shape of a command's arguments. An option is written with two hyphens and its name, or with
one and its letter; its value follows in the same argument, after an equals sign or directly after
the letter, or is the next argument. An option whose value is an argument of its own is taken note
of only when another option comes or the arguments end, so that a word in a wrong place is found
before a wrong value. -/

namespace BoundSql.Command

/-- How an option is written, and what the help says about it. -/
structure Flag (ο : Type) where
  option : ο
  name : String
  letter : Option Char := none
  /-- The name of its value in the usage, if it takes one. -/
  valueName : Option String := none
  about : String

/-- What keeps arguments from asking for something to be done. -/
inductive Halt where
  | problem (p : Problem)
  /-- They ask what can be asked for. -/
  | help
  /-- They ask for a text. -/
  | answer (text : String)
  deriving DecidableEq

variable {ο σ : Type}

/-- The option that asks for help. -/
def Flag.ofHelp (option : ο) : Flag ο := ⟨option, "help", some 'h', none, "Print help"⟩

/-- The option as the usage names it. -/
def Flag.usage (f : Flag ο) : String :=
  match f.valueName with
  | some v => "--" ++ f.name ++ " <" ++ v ++ ">"
  | none => "--" ++ f.name

/-- An option that was given, with its value; one that takes none has the empty value. -/
structure Setting (ο : Type) where
  flag : Flag ο
  value : String := ""

namespace Setting

/-- Reads the value of an option; the message of a failure names the option and the value. -/
def read {α : Type} (s : Setting ο) (f : String → Except String α) : Except Halt α :=
  (f s.value).mapError fun reason => .problem (.invalidValue s.value s.flag.usage reason)

/-- An option that may be given once is refused the second time, before its value is read. -/
def once {α : Type} (s : Setting ο) (given : Bool) (result : Except Halt α) : Except Halt α :=
  if given then .error (.problem (.repeated s.flag.usage)) else result

end Setting

/-- How an argument with options ends. -/
inductive Ending (ο : Type) where
  | complete
  /-- The last option takes the next argument for its value. -/
  | waiting (flag : Flag ο)
  | problem (p : Problem)

/-- What one argument says. -/
inductive Reading (ο : Type) where
  /-- Options with their values, and what comes after them. -/
  | options (given : List (Setting ο)) (ending : Ending ο)
  /-- No option. -/
  | word (s : String)
  /-- What follows are no options. -/
  | separator

/-- The value attached to an option, after an equals sign if there is one. -/
def attached : List Char → String
  | '=' :: r => String.ofList r
  | r => String.ofList r

/-- Letters after a single hyphen: one that takes a value takes all that follows. -/
def readLetters (flags : List (Flag ο)) (given : List (Setting ο)) : List Char → Reading ο
  | [] => .options given .complete
  | c :: r =>
    match flags.find? (·.letter = some c) with
    | none => .options given (.problem (.unexpected ("-" ++ c.toString)))
    | some f =>
      if f.valueName.isNone then readLetters flags (given ++ [⟨f, ""⟩]) r
      else if r.isEmpty then .options given (.waiting f)
      else .options (given ++ [⟨f, attached r⟩]) .complete

/-- A name after two hyphens, perhaps with an equals sign and a value. -/
def readName (flags : List (Flag ο)) (s : List Char) : Reading ο :=
  let name := s.takeWhile (· ≠ '=')
  match flags.find? (·.name = String.ofList name), s.drop name.length with
  | none, _ => .options [] (.problem (.unexpected ("--" ++ String.ofList name)))
  | some f, [] =>
    if f.valueName.isNone then .options [⟨f, ""⟩] .complete else .options [] (.waiting f)
  | some f, r =>
    if f.valueName.isNone then .options [] (.problem (.unexpectedValue (attached r) f.usage))
    else .options [⟨f, attached r⟩] .complete

/-- A lone hyphen is no option, and two of them end the options. -/
def readArgument (flags : List (Flag ο)) (s : String) : Reading ο :=
  match s.toList with
  | ['-', '-'] => .separator
  | '-' :: '-' :: r => readName flags r
  | ['-'] => .word s
  | '-' :: r => readLetters flags [] r
  | _ => .word s

/-- The last option that was given, as long as it is not taken note of. -/
inductive Pending (ο : Type) where
  | none
  /-- Its value is still to come. -/
  | waiting (flag : Flag ο)
  | given (s : Setting ο)

/-- Takes note of the last option. -/
def Pending.settle (add : σ → Setting ο → Except Halt σ) (state : σ) :
    Pending ο → Except Halt σ
  | .none => .ok state
  | .waiting f => .error (.problem (.missingValue f.usage))
  | .given s => add state s

/-- Arguments that were read up to the first word. -/
structure Scan (ο σ : Type) where
  /-- What was taken note of. -/
  state : σ
  pending : Pending ο
  /-- The first argument that is no option, and all after it. -/
  words : List String := []
  /-- Whether the words come after a separator. -/
  separated : Bool := false

namespace Scan

/-- Reads options up to the first word. What is wrong with the last option is not seen when the
argument after it is wrong from its first character on. -/
def read (flags : List (Flag ο)) (add : σ → Setting ο → Except Halt σ) (state : σ)
    (pending : Pending ο) : List String → Except Halt (Scan ο σ)
  | [] => .ok { state, pending }
  | s :: rest =>
    match readArgument flags s with
    | .separator => .ok { state, pending, words := rest, separated := true }
    | .word w =>
      match pending with
      | .waiting f => read flags add state (.given ⟨f, w⟩) rest
      | _ => .ok { state, pending, words := s :: rest }
    | .options [] (.problem p) => .error (.problem p)
    | .options given ending => do
      let state ← given.foldlM add (← pending.settle add state)
      match ending with
      | .complete => read flags add state .none rest
      | .waiting f => read flags add state (.waiting f) rest
      | .problem p => .error (.problem p)

/-- Takes note of the last option that was read. -/
def settle (add : σ → Setting ο → Except Halt σ) (s : Scan ο σ) : Except Halt σ :=
  s.pending.settle add s.state

end Scan

end BoundSql.Command
