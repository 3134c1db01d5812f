import EarningsLedger.Check.Rule

/-!
# Settings

The settings say where the database is, how long pages are, and where the log goes. All
have a default except the password. `Settings.check` reads them from named values;
`Settings.databaseUrl` is the address of the database, either given as a whole or put
together from its parts.
-/

namespace EarningsLedger

open Check

/-- The settings of the program. -/
structure Settings where
  driver : String
  host : String
  port : Int
  name : String
  user : String
  password : String
  url : Option String
  echo : Bool
  usualLimit : Int
  maximumLimit : Int
  logDirectory : String
  logFile : String
  jsonConsole : Bool
  debug : Bool
  deriving DecidableEq, Repr

namespace Settings

def names : List String :=
  ["db_driver", "db_host", "db_port", "db_name", "db_user", "db_password", "database_url",
   "db_echo", "default_query_limit", "max_query_limit", "log_dir", "log_file_name",
   "log_json_console", "debug"]

def checkAddress (fields : Fields) :
    Verdict (String × String × Int × String × String × String × Option String) :=
  Verdict.both (field fields "db_driver" (some "postgresql+asyncpg") text)
    (Verdict.both (field fields "db_host" (some "localhost") text)
      (Verdict.both (field fields "db_port" (some 5432) looseInt)
        (Verdict.both (field fields "db_name" (some "pool_db") text)
          (Verdict.both (field fields "db_user" (some "pool_admin") text)
            (Verdict.both (required fields "db_password" text)
              (field fields "database_url" (some none) (optional text)))))))

def checkLimits (fields : Fields) : Verdict (Int × Int) :=
  Verdict.both (field fields "default_query_limit" (some 100) looseInt)
    (field fields "max_query_limit" (some 1000) looseInt)

def checkLog (fields : Fields) : Verdict (String × String × Bool × Bool) :=
  Verdict.both (field fields "log_dir" (some "logs") text)
    (Verdict.both (field fields "log_file_name" (some "pool_earnings.log") text)
      (Verdict.both (field fields "log_json_console" (some false) truth)
        (field fields "debug" (some false) truth)))

def check (fields : Fields) : Verdict Settings :=
  (Verdict.both (checkAddress fields)
    (Verdict.both (field fields "db_echo" (some false) truth)
      (Verdict.both (checkLimits fields) (checkLog fields)))).map
    fun ⟨⟨driver, host, port, name, user, password, url⟩, echo, ⟨usual, maximum⟩,
        directory, file, json, debug⟩ =>
      ⟨driver, host, port, name, user, password, url, echo, usual, maximum, directory, file,
        json, debug⟩

/-- Checks settings given by name; the issues are listed under their title. -/
def accept (fields : Fields) : Except Issues Settings :=
  (check fields).mapError fun issues => ⟨"Settings", issues⟩

def fields (s : Settings) : Fields :=
  [("db_driver", .text s.driver), ("db_host", .text s.host), ("db_port", .int s.port),
   ("db_name", .text s.name), ("db_user", .text s.user), ("db_password", .text s.password),
   ("database_url", .ofText? s.url), ("db_echo", .bool s.echo),
   ("default_query_limit", .int s.usualLimit), ("max_query_limit", .int s.maximumLimit),
   ("log_dir", .text s.logDirectory), ("log_file_name", .text s.logFile),
   ("log_json_console", .bool s.jsonConsole), ("debug", .bool s.debug)]

def partsUrl (s : Settings) : String :=
  s.driver ++ "://" ++ s.user ++ ":" ++ s.password ++ "@" ++ s.host ++ ":" ++
    Text.intText s.port ++ "/" ++ s.name

/-- The address of the database; a whole address that is not empty goes before its parts. -/
def databaseUrl (s : Settings) : String :=
  match s.url with
  | some url => if url = "" then s.partsUrl else url
  | none => s.partsUrl

end Settings

end EarningsLedger
