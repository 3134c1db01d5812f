import EarningsLedger.Schema.ColumnType

/-!
# Addresses of databases

An address begins with the name of a dialect, perhaps with a driver behind a plus sign,
and goes on with a user, a password, a host and a port. `dialectOf` finds the dialect an
address speaks of, or says what is wrong with the address. Of the parts behind the name
only the port can be wrong.
-/

namespace EarningsLedger.Schema

/-- What is wrong with an address. -/
inductive AddressTrouble where
  | unreadable
  | portNumber (trouble : IntegerTrouble)
  | portMissing
  | unknownPlugin (name : String)
  | unknownModule (name : String)
  | manyDrivers
  deriving DecidableEq, Repr

namespace AddressTrouble

def sort : AddressTrouble → String
  | unreadable => "ArgumentError"
  | portNumber trouble => trouble.sort
  | portMissing => "TypeError"
  | unknownPlugin _ => "NoSuchModuleError"
  | unknownModule _ => "ModuleNotFoundError"
  | manyDrivers => "ValueError"

def message : AddressTrouble → String
  | unreadable => "Could not parse SQLAlchemy URL from given URL string"
  | portNumber trouble => trouble.message
  | portMissing => "Port argument must be an integer or None"
  | unknownPlugin name => "Can't load plugin: sqlalchemy.dialects:" ++ name
  | unknownModule name => "No module named '" ++ name ++ "'"
  | manyDrivers => "too many values to unpack (expected 2)"

end AddressTrouble

namespace Address

/-- A character of a dialect's or a driver's name, or the plus sign between them. -/
def isNameChar (c : Char) : Bool := c.isAlphanum || c == '_' || c == '+'

/-- The name in front of an address, and what follows its mark. -/
def split? (address : List Char) : Option (List Char × List Char) :=
  let name := address.takeWhile isNameChar
  match address.drop name.length with
  | ':' :: '/' :: '/' :: rest => if name = [] then none else some (name, rest)
  | _ => none

/-- What stands behind the last mark of a kind, if there is one. -/
def behindLast? (mark : Char) (cs : List Char) : Option (List Char) :=
  if cs.contains mark then some ((cs.reverse.takeWhile (· != mark)).reverse) else none

/-- Leaves the user out: a name, a password behind a colon, and an at sign. A password
holds no at sign, and a name no colon and no slash. -/
def afterUser (cs : List Char) : List Char :=
  let user := cs.takeWhile fun c => c != ':' && c != '/'
  let rest := cs.drop user.length
  let afterPassword := match rest with
    | ':' :: more =>
      match more.dropWhile (· != '@') with
      | '@' :: host => some host
      | _ => none
    | _ => none
  match afterPassword with
  | some host => host
  | none =>
    match behindLast? '@' user with
    | some host => host ++ rest
    | none => cs

/-- What follows the host. A host in brackets ends with them. -/
def afterHost (cs : List Char) : List Char :=
  let plain := cs.dropWhile fun c => c != '/' && c != ':' && c != '?'
  match cs with
  | '[' :: more =>
    let inner := more.takeWhile fun c => c != '/' && c != '?'
    match behindLast? ']' inner with
    | some tail =>
      if inner.head? = some ']' then plain else tail ++ more.drop inner.length
    | none => plain
  | _ => plain

/-- The port of an address, as written; nothing when there is no colon for it. -/
def port? (cs : List Char) : Option (List Char) :=
  match afterHost (afterUser cs) with
  | ':' :: more => some (more.takeWhile fun c => c != '/' && c != '?')
  | _ => none

def checkPort (cs : List Char) : Except AddressTrouble Unit :=
  match port? cs with
  | none => .ok ()
  | some [] => .error .portMissing
  | some digits =>
    match integerOf (.text (String.ofList digits)) with
    | .ok _ => .ok ()
    | .error trouble => .error (.portNumber trouble)

/-! ## Names of dialects and drivers -/

def driversOf : Dialect → List String
  | .mysql | .mariadb =>
    ["base", "aiomysql", "asyncmy", "cymysql", "mariadbconnector", "mysqlconnector", "mysqldb",
     "pymysql", "pyodbc"]
  | .postgresql =>
    ["base", "asyncpg", "pg8000", "psycopg", "psycopg_async", "psycopg2", "psycopg2cffi"]
  | .sqlite => ["base", "aiosqlite", "pysqlcipher", "pysqlite"]
  | .oracle => ["base", "cx_oracle", "oracledb", "oracledb_async"]
  | .mssql => ["base", "aioodbc", "pymssql", "pyodbc"]

/-- The parts of a name between plus signs. -/
def parts (name : List Char) : List (List Char) := name.splitOn '+'

/-- The dialect of a name with at most one driver. -/
def dialectOfName (name : List Char) : Except AddressTrouble Dialect :=
  let found (family driver : List Char) (whole : String) : Except AddressTrouble Dialect :=
    match Dialect.ofName? (String.ofList family) with
    | none => .error (.unknownPlugin whole)
    | some dialect =>
      if (driversOf dialect).contains (String.ofList driver) then .ok dialect
      else if dialect = .mariadb then
        .error (.unknownModule ("sqlalchemy.dialects.mysql." ++ String.ofList driver))
      else .error (.unknownPlugin whole)
  match parts name with
  | [family] => found family "base".toList (String.ofList family)
  | [family, driver] =>
    found family driver (String.ofList family ++ "." ++ String.ofList driver)
  | _ => .error .manyDrivers

def dialectOf (address : String) : Except AddressTrouble Dialect :=
  match split? address.toList with
  | none => .error .unreadable
  | some (name, rest) => do
    checkPort rest
    dialectOfName name

end Address

end EarningsLedger.Schema
