/-!
# Dialects

The table of earnings can be declared to six databases. A dialect is how one of them
wants to be spoken to; `Dialect.ofName?` finds it by its name.
-/

namespace EarningsLedger.Schema

/-- A database's way of writing statements. -/
inductive Dialect where
  | mysql
  | mariadb
  | postgresql
  | sqlite
  | oracle
  | mssql
  deriving DecidableEq, Repr

namespace Dialect

def name : Dialect → String
  | mysql => "mysql"
  | mariadb => "mariadb"
  | postgresql => "postgresql"
  | sqlite => "sqlite"
  | oracle => "oracle"
  | mssql => "mssql"

def every : List Dialect := [mysql, mariadb, postgresql, sqlite, oracle, mssql]

def ofName? (name : String) : Option Dialect := every.find? fun dialect => dialect.name == name

/-- Whether the database has unsigned integers of 64 bits and stamps to the microsecond. -/
def hasUnsigned : Dialect → Bool
  | mysql | mariadb => true
  | _ => false

/-- Whether an amount is handed over as an integer, and not as a decimal number. -/
def takesIntegers (dialect : Dialect) : Bool := dialect.hasUnsigned || dialect == sqlite

/-- A dialect is found by its own name. -/
theorem ofName?_name (dialect : Dialect) : ofName? dialect.name = some dialect := by
  cases dialect <;> decide

end Dialect

end EarningsLedger.Schema
