import EarningsLedger.Text.Digits

/-!
# Storage faults

Everything that can go wrong below the ledger is a fault: the database refuses a
statement, the driver cannot take a value, or a part of the program fails in a way that
has nothing to do with storage. A fault may carry the error that caused it; the text of
a database error is then the text of its cause, marked with the cause's class.
-/

namespace EarningsLedger.Storage

/-- The sorts of faults. -/
inductive FaultKind where
  | integrity
  | data
  | database (name : String)
  | statement
  | library (name : String)
  | overflow
  | runtime
  | value
  deriving DecidableEq, Repr

namespace FaultKind

def name : FaultKind → String
  | integrity => "IntegrityError"
  | data => "DataError"
  | database name => name
  | statement => "StatementError"
  | library name => name
  | overflow => "OverflowError"
  | runtime => "RuntimeError"
  | value => "ValueError"

/-- The sorts of database errors that are neither about integrity nor about data. -/
def databaseNames : List String :=
  ["DBAPIError", "InterfaceError", "DatabaseError", "OperationalError", "InternalError",
   "ProgrammingError", "NotSupportedError"]

/-- The sort of a name; an unknown name is another error of the storage library. -/
def ofName (name : String) : FaultKind :=
  if name = "IntegrityError" then integrity
  else if name = "DataError" then data
  else if name = "StatementError" then statement
  else if name = "OverflowError" then overflow
  else if name = "RuntimeError" then runtime
  else if name = "ValueError" then value
  else if databaseNames.contains name then database name
  else library name

/-- Whether faults of this sort wrap an error of the driver. -/
def wrapsDriver : FaultKind → Bool
  | integrity | data | database _ => true
  | _ => false

/-- Whether faults of this sort belong to storage at all. -/
def isStorage : FaultKind → Bool
  | overflow | runtime | value => false
  | _ => true

end FaultKind

/-- The error behind a fault. -/
structure FaultCause where
  className : String
  isOverflow : Bool
  text : String
  deriving DecidableEq, Repr

/-- A failure below the ledger. -/
structure Fault where
  kind : FaultKind
  own : String
  cause : Option FaultCause
  deriving DecidableEq, Repr

namespace Fault

def plain (kind : FaultKind) (text : String) : Fault := ⟨kind, text, none⟩

def ofDatabase (kind : FaultKind) (text : String) : Fault :=
  ⟨kind, "", some ⟨"sqlite3." ++ kind.name, false, text⟩⟩

/-- What a fault is about: the text of its cause, or its own. -/
def detail (fault : Fault) : String :=
  match fault.cause with
  | some cause => cause.text
  | none => fault.own

def text (fault : Fault) : String :=
  match fault.cause with
  | some cause =>
    if fault.kind.wrapsDriver then "(" ++ cause.className ++ ") " ++ cause.text else fault.own
  | none => fault.own

/-- Whether a number was too large for the driver. -/
def isOverflow (fault : Fault) : Bool :=
  fault.kind == .overflow || (fault.cause.map FaultCause.isOverflow).getD false

/-! ## Faults of the store itself -/

def noTable : Fault := ofDatabase (.database "OperationalError") "no such table: earnings"

/-- A number does not fit into a cell. -/
def tooLarge : Fault := plain .overflow "Python int too large to convert to SQLite INTEGER"

/-- A sum does not fit into a cell. -/
def sumTooLarge : Fault := ofDatabase (.database "OperationalError") "integer overflow"

def full : Fault := ofDatabase (.database "OperationalError") "database or disk is full"

/-- A stored stamp cannot be read, for the reason that the words give. -/
def badStamp (words : String) : Fault := plain .value words

/-- A time stamp would lie outside the calendar. -/
def badDate : Fault := plain .overflow "date value out of range"

/-- An error would have to show an integer that no text shows. -/
def tooManyDigits : Fault := plain .value Text.tooManyDigits

end Fault

end EarningsLedger.Storage
