/-! How to reach a database file. Each connection to a database in memory opens its own empty one,
so in memory there is a single connection. -/

namespace BoundSql.Sqlite

/-- Settings of a pool of connections. -/
structure Config where
  url : String
  maxConnections : UInt32 := 5
  loggerLabel : String := "oxide_sqlkit::sqlite"
  deriving DecidableEq

namespace Config

/-- A private database in memory. -/
def inMemory : Config := { url := "sqlite::memory:", maxConnections := 1 }

instance : Inhabited Config := ⟨inMemory⟩

def withMaxConnections (c : Config) (n : UInt32) : Config := { c with maxConnections := n }

def withLoggerLabel (c : Config) (label : String) : Config := { c with loggerLabel := label }

end Config

end BoundSql.Sqlite
