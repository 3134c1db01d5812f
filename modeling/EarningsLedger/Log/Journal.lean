import EarningsLedger.Binding.Entries
import EarningsLedger.Log.JsonLine

/-!
# The journal

A journal writes entries under a logger's name: a sentence with named values at one of
five levels, or one of three ready-made entries about earnings. A named value must not be
called like an attribute of a record, which is noticed only when the entry is let
through. A ready-made entry shows one of its values in its sentence, so it has none where that
value has no text.
-/

namespace EarningsLedger.Log

open Binding

/-- What can be asked of a journal. -/
inductive Method where
  | at (level : Level)
  | created
  | updated
  | batchCreated
  deriving DecidableEq, Repr

namespace Method

def name : Method → String
  | «at» .debug => "debug"
  | «at» .info => "info"
  | «at» .warning => "warning"
  | «at» .error => "error"
  | «at» .critical => "critical"
  | created => "earning_created"
  | updated => "earning_updated"
  | batchCreated => "earnings_batch_created"

def every : List Method := Level.every.map «at» ++ [created, updated, batchCreated]

def ofName? (name : String) : Option Method := every.find? fun method => method.name == name

def needed : Method → List String
  | «at» _ => ["msg"]
  | created => ["earning_id", "miner_id", "pool_id", "challenge_id", "amount"]
  | updated => ["earning_id", "old_amount", "new_amount"]
  | batchCreated => ["count", "total_amount"]

def signature (method : Method) : Signature :=
  ⟨"StructuredLogger." ++ method.name, some "self",
    method.needed.map fun name => ⟨name, false⟩, true⟩

/-- The full name of the method that ready-made entries are written with. -/
def fullInfoName : String := "pool_earnings.utils.logging_config.StructuredLogger.info"

end Method

/-- What a journal was asked to write. -/
structure Written where
  level : Level
  message : Value
  extras : Fields
  deriving Repr

/-- Why a journal writes nothing. -/
inductive JournalTrouble where
  | misuse (misuse : Misuse)
  | untold (trouble : LineTrouble)
  | reservedName (name : String)
  deriving DecidableEq, Repr

def JournalTrouble.message : JournalTrouble → String
  | .misuse cause => cause.message
  | .untold trouble => trouble.message
  | .reservedName name =>
    let words :=
      "Attempt to overwrite " ++ String.ofList (Text.quoted name.toList) ++ " in LogRecord"
    String.ofList (Text.quoted words.toList)

def JournalTrouble.sort : JournalTrouble → String
  | .misuse cause => if cause.isShape then "ValueError" else "TypeError"
  | .untold trouble => trouble.sort
  | .reservedName _ => "KeyError"

/-- Writes a sentence with named values at a level. -/
def writtenAt (level : Level) (message : Value) (extras : Fields) :
    Except JournalTrouble Written :=
  if extras.has "level" then
    .error (.misuse (.repeatedArgument "StructuredLogger._log_with_context" "level"))
  else .ok ⟨level, message, extras⟩

/-- Writes a ready-made entry: a sentence around the text of a value, and named values with any
more. -/
def readyMade (before after event : String) (subject : String) (given extras : Fields) :
    Except JournalTrouble Written :=
  match extras.find? fun field => field.1 == "event" || given.has field.1 with
  | some field => .error (.misuse (.repeatedKeyword Method.fullInfoName field.1))
  | none =>
    if extras.has "msg" then .error (.misuse (.repeatedArgument "StructuredLogger.info" "msg"))
    else
      writtenAt .info (.text (before ++ subject ++ after))
        (("event", .text event) :: given ++ extras)

/-- What a method writes, where the stack has room for so many levels of nested values. -/
def Method.written (levels : Nat) (method : Method) (positional : List Value) (named : Fields) :
    Except JournalTrouble Written := do
  let bound ← (method.signature.bind positional named).mapError JournalTrouble.misuse
  let value (name : String) := (bound.given.get? name).getD .null
  let given := method.needed.map fun name => (name, value name)
  let text (name : String) := (told levels (value name)).mapError JournalTrouble.untold
  match method with
  | «at» level => writtenAt level (value "msg") bound.extras
  | created =>
    readyMade "Начисление создано: " "" "earning_created" (← text "earning_id") given bound.extras
  | updated =>
    readyMade "Начисление обновлено: " "" "earning_updated" (← text "earning_id") given
      bound.extras
  | batchCreated =>
    readyMade "Пакет начислений сохранен: " " шт." "earnings_batch_created" (← text "count") given
      bound.extras

/-- The record of what a journal wrote. A value called like an attribute is refused. -/
def Written.record (logger : String) (written : Written) : Except JournalTrouble Record :=
  match written.extras.find? fun field => Record.reservedNames.contains field.1 with
  | some field => .error (.reservedName field.1)
  | none =>
    .ok ((Record.make (.text logger) written.level.number (.text "") (.int 0) written.message []
      .null none (.int 0)).setAll written.extras)

/-- The name that the entries of a journal carry. The journal without a name is the root. -/
def journalName (name : String) : String := if name = "" then "root" else name

/-- The least level that a threshold lets through. A journal without a threshold of its own
goes by the root, which lets warnings through; the root itself then lets everything
through. -/
def effectiveThreshold (logger : String) (threshold : Int) : Int :=
  if threshold = 0 ∧ journalName logger ≠ "root" then Level.warning.number else threshold

/-- The record of a call that a threshold lets through, if it does. -/
def journal (levels : Nat) (logger : String) (threshold : Int) (method : Method)
    (positional : List Value) (named : Fields) : Except JournalTrouble (Option Record) := do
  let written ← method.written levels positional named
  if threshold ≤ written.level.number then some <$> written.record (journalName logger)
  else pure none

end EarningsLedger.Log
