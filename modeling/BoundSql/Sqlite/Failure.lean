import BoundSql.Error

/-! What can go wrong between a database file and its driver, and how the rest of the library sees
it: a value of an unknown kind is an error of reading, all else one of the driver. -/

namespace BoundSql.Sqlite

/-- Why a query of a database file cannot be understood; a column is named as the query names it. -/
inductive QueryError where
  | noSuchTable (name : String)
  | noSuchColumn (name : String)
  deriving DecidableEq

def QueryError.message : QueryError → String
  | noSuchTable name => "no such table: " ++ name
  | noSuchColumn name => "no such column: " ++ name

/-- What the connection layer reports. -/
inductive ConnectionError where
  | query (reason : QueryError)
  | protocol (text : String)
  | unknownColumn (name : String)
  | poolClosed
  deriving DecidableEq

def ConnectionError.message : ConnectionError → String
  | query reason => "error returned from database: (code: 1) " ++ reason.message
  | protocol text => "encountered unexpected or invalid data: " ++ text
  | unknownColumn name => "no column found for name: " ++ name
  | poolClosed => "attempted to acquire a connection on a closed pool"

/-- Why a row of a database file cannot be had. -/
inductive Failure where
  | connection (reason : ConnectionError)
  | unsupportedType (column : String) (typeName : String)
  deriving DecidableEq

namespace Failure

def message : Failure → String
  | connection reason => "Database error: " ++ reason.message
  | unsupportedType column typeName =>
    "Unsupported value type '" ++ typeName ++ "' in column '" ++ column ++ "'"

/-- The failure as an error of a statement. -/
def toError : Failure → Error
  | connection reason => .driver reason.message
  | unsupportedType column typeName => .decode (.unsupportedValue column typeName)

end Failure

end BoundSql.Sqlite
