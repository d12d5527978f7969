import BoundSql.Logger
import BoundSql.Sqlite.Config
import BoundSql.Sqlite.Storage

/-! What a command finds where it runs: an engine for the databases that can be opened there, and
memory for a table of connections, in which a slot is kept for each connection from the start. What
it leaves there is what it writes, what it notes on the way, and how it ends. -/

namespace BoundSql.Command

/-- What a command notes on its way. -/
inductive Notice where
  | connected (config : Sqlite.Config)
  | executing (e : Event)
  | delivered (rows : Nat)
  | closed
  deriving DecidableEq

namespace Notice

/-- How important a notice is. -/
def level : Notice → Level
  | connected _ | delivered _ => .info
  | executing e => e.logger.level
  | closed => .debug

/-- What a notice says, its fields apart. -/
def message : Notice → String
  | connected _ => "connected to sqlite"
  | executing _ => Event.message
  | delivered rows => toString rows ++ " row(s)"
  | closed => "sqlite pool closed"

/-- Whether a notice is shown. Traces never are, and the details only if they are asked for. -/
def isShown (verbose : Bool) (n : Notice) : Bool :=
  match n.level with
  | .error | .warn | .info => true
  | .debug => verbose
  | .trace => false

end Notice

/-- What a command leaves behind. -/
structure Outcome where
  /-- The status with which it ends; one that breaks off has none. -/
  status : Option UInt8
  output : String := ""
  notices : List Notice := []
  complaint : Option String := none

/-- Why something failed, and the causes behind it, the nearest first. -/
structure Fault where
  text : String
  causes : List String := []

namespace Fault

/-- A fault as the cause of another, whose text ends with its own. -/
def behind (word : String) (f : Fault) : Fault := ⟨word ++ f.text, f.text :: f.causes⟩

/-- A text in which all lines but the first begin with a margin. -/
def indented (margin : String) (s : String) : String :=
  String.ofList (s.toList.flatMap fun c => if c = '\n' then c :: margin.toList else [c])

/-- A cause with its number, set flush right in five places. -/
def numbered (i : Nat) (cause : String) : String :=
  let number := toString i
  "\n" ++ "".pushn ' ' (5 - number.length) ++ number ++ ": " ++ indented ("".pushn ' ' 7) cause

/-- What is said about a fault. A single cause has no number. -/
def account (f : Fault) : String :=
  f.text ++
    match f.causes with
    | [] => ""
    | [cause] => "\n\nCaused by:\n    " ++ indented "    " cause
    | causes => "\n\nCaused by:" ++ String.join (causes.mapIdx numbered)

end Fault

/-- Rows that a statement gives, with their columns. -/
structure Result where
  columns : List Sqlite.Column
  rows : List (List Sqlite.Datum)

/-- What an engine answers: one result after another, and the fault behind them, if there is one. -/
structure Response where
  results : List Result := []
  fault : Option Fault := none

namespace Response

/-- One delivery and then another, unless the first fails. -/
def andThen (d d' : Delivery) : Delivery :=
  match d.outcome with
  | .ok () => ⟨d.rows ++ d'.rows, d'.outcome⟩
  | .error _ => d

/-- The rows of an answer as far as they can be read. -/
def delivery (r : Response) : Delivery :=
  r.results.foldr (fun result => andThen (Sqlite.deliver result.columns result.rows))
    ⟨[], match r.fault with
      | some f => .error (.driver f.text)
      | none => .ok ()⟩

/-- An error of a statement with the causes behind it, which only the driver gives. -/
def faultOf (r : Response) : Error → Fault
  | .driver text => .behind "driver error: " ⟨text, (r.fault.map Fault.causes).getD []⟩
  | .decode reason => ⟨reason.message, []⟩

end Response

/-- A database that is open: it takes the text of statements and their arguments. -/
abbrev Connection : Type := String → List Sqlite.Argument → Response

/-- The answer to a query. -/
def Connection.ask (connection : Connection) (q : Query) : Response :=
  connection q.sql (q.binds.map .ofValue)

/-- The surroundings of a command. -/
structure Host where
  /-- What is wrong with the name of a database, if anything is. -/
  refuses : String → Option Fault
  /-- Opens a database. -/
  connect : Sqlite.Config → Except Fault Connection
  /-- The bytes of a slot. -/
  slotBytes : Nat
  /-- The bytes that are granted to one table of slots. -/
  grantedBytes : Nat
  /-- What is said when a table has no slots. -/
  noSlots : String
  /-- What is said when so many bytes are refused. -/
  refusal : Nat → String
  /-- How a notice is written. -/
  display : Notice → String
  /-- What is added to the account of a fault, such as where it came up. -/
  trace : String := ""

namespace Host

/-- The outcome of a command that fails. -/
def failed (host : Host) (f : Fault) : Outcome :=
  { status := some 1, complaint := some ("Error: " ++ f.account ++ host.trace ++ "\n") }

/-- Keeps a slot for each connection. A table without slots is a mistake that the command does not
survive, and neither does it survive one that memory is refused. -/
def reserve (host : Host) (connections : UInt32) : Except Outcome Unit :=
  let bytes := host.slotBytes * connections.toNat
  if connections = 0 then .error { status := some 101, complaint := some host.noSlots }
  else if bytes ≤ host.grantedBytes then .ok ()
  else .error { status := none, complaint := some (host.refusal bytes) }

/-- Reads the name of a database and keeps slots for its connections, without opening it. -/
def prepare (host : Host) (config : Sqlite.Config) : Except Outcome Unit :=
  match host.refuses config.url with
  | some f => .error (host.failed (f.behind "Database error: "))
  | none => host.reserve config.maxConnections

end Host

end BoundSql.Command
