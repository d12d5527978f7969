import BoundSql.Command.Connections
import BoundSql.Command.Help
import BoundSql.Command.Request
import BoundSql.Sqlite.Config

/-! Whole command lines: the options that all commands share, the name of a command, and what its
arguments ask for. -/

namespace BoundSql.Command

/-- The options before the name of the command. -/
inductive CommonOption where
  | database
  | maxConnections
  | verbose
  | help
  | version
  deriving DecidableEq

namespace CommonOption

/-- How each option is written. -/
def flag : CommonOption → Flag CommonOption
  | database => ⟨database, "database", some 'd', some "DATABASE",
      "Database URL (SQLite path or connection string) " ++
        "[env: DATABASE_URL=] [default: sqlite::memory:]"⟩
  | maxConnections => ⟨maxConnections, "max-connections", none, some "MAX_CONNECTIONS",
      "Maximum number of pooled connections [default: 5]"⟩
  | verbose => ⟨verbose, "verbose", some 'v', none,
      "Enable verbose output, including every executed query"⟩
  | help => .ofHelp help
  | version => ⟨version, "version", some 'V', none, "Print version"⟩

/-- All of the options. -/
def flags : List (Flag CommonOption) :=
  [database, maxConnections, verbose, help, version].map flag

end CommonOption

/-- The commands. -/
inductive CommandName where
  | query
  | sql
  | exec
  | help
  deriving DecidableEq

namespace CommandName

/-- All of the commands, in the order of the help. -/
def all : List CommandName := [query, sql, exec, help]

def text : CommandName → String
  | query => "query"
  | sql => "sql"
  | exec => "exec"
  | help => "help"

/-- The command of a name. -/
def find? (name : String) : Option CommandName := all.find? (·.text = name)

/-- The help of each command. -/
def description : CommandName → Help
  | query => {
      about := "Run a SELECT and print each row as a JSON line"
      usage := "sqlkit query [OPTIONS] --table <TABLE>"
      options := Flag.rows QueryOption.flags }
  | sql => {
      about := "Print the SQL and binds a SELECT would run, without running it"
      usage := "sqlkit sql [OPTIONS] --table <TABLE>"
      options := Flag.rows QueryOption.flags }
  | exec => {
      about := "Run a raw SQL statement and print any returned rows"
      usage := "sqlkit exec <SQL>"
      arguments := [("<SQL>", "The statement")]
      options := Flag.rows [.ofHelp ()] }
  | help => {
      about := "Print this message or the help of the given subcommand(s)"
      usage := "sqlkit help [COMMAND]..."
      arguments := [("[COMMAND]...", "Print help for the subcommand(s)")] }

end CommandName

/-- The options before the command, as far as they were given. -/
structure Common where
  database : Option String := none
  connections : Option UInt32 := none
  verbose : Bool := false
  deriving DecidableEq

namespace Common

/-- The help that comes before all commands. -/
def help : Help where
  about := "SQLite dialect and sqlx-backed driver for oxide-sqlkit-core"
  usage := "sqlkit [OPTIONS] <COMMAND>"
  commands := CommandName.all.map fun name => (name.text, name.description.about)
  options := Flag.rows CommonOption.flags

/-- Adds one option. -/
def add (c : Common) (s : Setting CommonOption) : Except Halt Common :=
  match s.flag.option with
  | .database => s.once c.database.isSome (.ok { c with database := some s.value })
  | .maxConnections => s.once c.connections.isSome
      ((s.read Connections.read).map fun n => { c with connections := some n })
  | .verbose => s.once c.verbose (.ok { c with verbose := true })
  | .help => .error (.answer help.text)
  | .version => .error (.answer "sqlkit 0.1.0\n")

/-- The database that a command works on, where the environment names none: one in memory and five
connections, unless others are given. -/
def config (c : Common) : Sqlite.Config :=
  ({ url := c.database.getD "sqlite::memory:" } : Sqlite.Config).withMaxConnections
    (c.connections.getD 5)

end Common

/-- What a command line asks for. -/
inductive Task where
  /-- The rows of a query. -/
  | query (r : Request)
  /-- The query itself. -/
  | sql (r : Request)
  /-- The rows of a statement that is given as it is. -/
  | exec (statement : String)

/-- Arguments up to the first word, where the only option asks for help. -/
def scanStatement : List String → Except Halt (Scan Unit Unit) :=
  Scan.read [.ofHelp ()] (fun () _ => .error .help) () .none

/-- The statement among the arguments of a command: their only word. -/
def readStatement (arguments : List String) : Except Halt String := do
  let s ← scanStatement arguments
  match s.words with
  | [] => throw (.problem (.missing "<SQL>"))
  | w :: rest =>
    let others ← if s.separated then pure rest else (scanStatement rest).map (·.words)
    match others with
    | [] => return w
    | v :: _ => throw (.problem (.unexpected v))

/-- The answer to a call for help: that of the command that is named, or of the whole. -/
def helpOn : List String → Halt
  | [] => .answer Common.help.text
  | w :: names =>
    match CommandName.find? w, names with
    | none, _ => .problem (.unknownCommand w)
    | some name, [] => .answer name.description.text
    | some _, v :: _ => .problem (.unknownCommand v)

/-- What the arguments of a command ask for. -/
def CommandName.read (arguments : List String) : CommandName → Except Halt Task
  | query => (Request.ofArguments arguments).map .query
  | sql => (Request.ofArguments arguments).map .sql
  | exec => (readStatement arguments).map .exec
  | help => .error (helpOn arguments)

/-- What is wrong when no command follows the options. -/
def noCommand (c : Common) : Problem :=
  if c = {} then .noArguments Common.help.text
  else .noCommand (CommandName.all.map CommandName.text)

/-- What a whole command line asks for. What follows the command is read before the last option in
front of it is taken note of. -/
def readCommandLine (arguments : List String) : Except Halt (Common × Task) := do
  let s ← Scan.read CommonOption.flags Common.add {} .none arguments
  match s.words with
  | [] => throw (.problem (noCommand (← s.settle Common.add)))
  | w :: rest =>
    match CommandName.find? w, s.separated with
    | none, _ => throw (.problem (.unknownCommand w))
    | some _, true => throw (.problem (.unexpected w))
    | some name, false =>
      let task ← (name.read rest).mapError (·.under name.description)
      return (← s.settle Common.add, task)

end BoundSql.Command
