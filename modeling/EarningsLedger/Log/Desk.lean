import EarningsLedger.Log.ColorLine
import EarningsLedger.Log.Journal
import EarningsLedger.Settings.Basic

/-!
# The log desk

A log desk takes the entries of all journals and hands each to its outlets: the console,
the main file and the file of warnings, each from a level of its own on. Journals of the
libraries in use are heard from warnings on. Setting the desk up again puts its outlets
in the place of those from before, so that no entry is written twice.

Every outlet makes its own line when its turn comes, on an occasion of its own, and writes
nothing where it can make none. The others are not concerned, with one exception: a record
that is nested too deep for the console is taken from the outlets behind it as well. A line
that is made is written: half of a surrogate pair, which no file takes, is no text here.
-/

namespace EarningsLedger.Log

open Calendar

/-! ## Outlets -/

/-- Where lines go. -/
inductive Place where
  | console
  | file (path : String)
  deriving DecidableEq, Repr

/-- What lines look like. -/
inductive Layout where
  | colored
  | json
  deriving DecidableEq, Repr

/-- How large a file may grow, and how many full files are kept beside it. -/
structure Room where
  bytes : Nat
  backups : Nat
  deriving DecidableEq, Repr

/-- A place that takes the entries from a level on. -/
structure Outlet where
  place : Place
  least : Level
  layout : Layout
  room : Option Room
  deriving DecidableEq, Repr

/-- The line of a record in an outlet's layout. -/
def Outlet.line (outlet : Outlet) (occasion : Occasion) (record : Record) :
    Except LineTrouble String :=
  match outlet.layout with
  | .colored => colorLine plainFormat occasion record
  | .json => jsonLine occasion record

/-- Whether an outlet keeps a record to itself that it has no line for. Files keep every one;
the console lets the ones pass that the stack has no room for, and they end the call. -/
def Outlet.keeps (outlet : Outlet) (trouble : LineTrouble) : Bool :=
  outlet.place != .console || !trouble.isDeep

/-! ## Paths -/

/-- One more step of a path: an empty step and a dot lead nowhere, two dots lead back. -/
def walk (path : List String) (step : String) : List String :=
  if step = "" ∨ step = "." then path
  else if step = ".." ∧ path ≠ [] then path.dropLast
  else path ++ [step]

/-- The path of a file in a directory. -/
def pathIn (directory file : String) : String :=
  String.intercalate "/" ((directory.splitOn "/" ++ [file]).foldl walk [])

/-! ## Setting up -/

/-- What the settings say about the log. -/
structure Setup where
  debug : Bool
  jsonConsole : Bool
  directory : String
  mainFile : String
  deriving DecidableEq, Repr

namespace Setup

/-- The setup that settings ask for, in a directory. -/
def ofSettings (settings : Settings) (directory : String) : Setup :=
  ⟨settings.debug, settings.jsonConsole, directory, settings.logFile⟩

def least (setup : Setup) : Level := if setup.debug then .debug else .info

def outlets (setup : Setup) : List Outlet :=
  [⟨.console, setup.least, if setup.jsonConsole then .json else .colored, none⟩,
   ⟨.file (pathIn setup.directory setup.mainFile), .info, .json, some ⟨10485760, 5⟩⟩,
   ⟨.file (pathIn setup.directory "errors.log"), .warning, .json, some ⟨5242880, 3⟩⟩]

end Setup

/-! ## The desk -/

/-- What an entry meets on its way: when its record is made, how much room the stack has for
the call, and the occasion at each place. -/
structure Situation where
  made : Instant
  levels : Nat
  found : Place → Occasion

/-- A line that an outlet was given. -/
structure Delivery where
  place : Place
  line : String
  deriving DecidableEq, Repr

/-- Who listens to the journals, and what was written so far. -/
structure Desk where
  least : Level
  outlets : List Outlet
  quiet : List (String × Level)
  delivered : List Delivery
  deriving DecidableEq, Repr

namespace Desk

/-- The desk before it is set up: only warnings are heard, and nobody listens. -/
def untouched : Desk := ⟨.warning, [], [], []⟩

/-- The lines written to a place, in order. -/
def lines (desk : Desk) (place : Place) : List String :=
  (desk.delivered.filter fun delivery => delivery.place == place).map Delivery.line

/-- Whether a journal has the name of a family or belongs to it. -/
def belongsTo (family name : String) : Bool :=
  name == family || (family ++ ".").toList.isPrefixOf name.toList

/-- The level from which a journal is heard. -/
def leastOf (desk : Desk) (name : String) : Level :=
  ((desk.quiet.find? fun entry => belongsTo entry.1 name).map (·.2)).getD desk.least

/-- What the outlets are given for a record, one after the other, each on its own occasion. -/
def deliveries (found : Place → Occasion) (level : Level) (record : Record) :
    List Outlet → List Delivery
  | [] => []
  | outlet :: rest =>
    if outlet.least.number ≤ level.number then
      match outlet.line (found outlet.place) record with
      | .ok line => ⟨outlet.place, line⟩ :: deliveries found level record rest
      | .error trouble =>
        if outlet.keeps trouble then deliveries found level record rest else []
    else deliveries found level record rest

def deliver (found : Place → Occasion) (level : Level) (record : Record) (desk : Desk) : Desk :=
  { desk with delivered := desk.delivered ++ deliveries found level record desk.outlets }

/-- The seconds from 1970 to an instant, in whole seconds. -/
def secondsOf (now : Instant) : Int := Int.fdiv ((now.micros : Int) - epochMicros) 1000000

/-- Hands an entry that a journal wrote to the outlets, if the journal is heard. An entry
with a reserved name is refused, and nothing is written. -/
def hear (situation : Situation) (journal : String) (written : Written) (desk : Desk) : Desk :=
  let name := journalName journal
  if (desk.leastOf name).number ≤ written.level.number then
    match written.record name with
    | .ok record =>
      desk.deliver situation.found written.level
        (record.set "created" (.int (secondsOf situation.made)))
    | .error _ => desk
  else desk

/-- The libraries whose journals are heard from warnings on. -/
def libraries : List String := ["sqlalchemy", "alembic", "aiosqlite"]

/-- What the desk itself has to say once it is set up. -/
def announcement : Written := ⟨.info, .text "Логирование настроено", []⟩

/-- Sets the desk up: new outlets take the place of all others, and the desk says so. -/
def setUp (situation : Situation) (setup : Setup) (desk : Desk) : Desk :=
  hear situation "" announcement
    { desk with
      least := setup.least
      outlets := setup.outlets
      quiet := libraries.map fun name => (name, .warning) }

/-- A call of a journal's method; a call that does not fit writes nothing. -/
def call (situation : Situation) (journal : String) (method : Method) (positional : List Value)
    (named : Fields) (desk : Desk) : Desk :=
  match method.written situation.levels positional named with
  | .ok written => desk.hear situation journal written
  | .error _ => desk

end Desk

/-! ## The levels of a migration -/

/-- The level of a journal and whether it is switched off. -/
structure Hearing where
  least : Int
  disabled : Bool
  deriving DecidableEq, Repr

def migrationLevels : List (String × Level) :=
  [("root", .warning), ("sqlalchemy.engine", .warning), ("alembic", .info)]

/-- How a journal is heard during a migration. One that the migration does not know of is
switched off. -/
def migrationHearing (name : String) : Hearing :=
  match migrationLevels.find? fun entry => entry.1 == name with
  | some entry => ⟨entry.2.number, false⟩
  | none => ⟨0, true⟩

end EarningsLedger.Log
