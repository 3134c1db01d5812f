import EarningsLedger.Text.Digits

/-!
# Levels

A log entry has one of five levels. Elsewhere a level may be any number; the numbers
without a name of their own are written out.
-/

namespace EarningsLedger.Log

/-- The weight of a log entry. -/
inductive Level where
  | debug
  | info
  | warning
  | error
  | critical
  deriving DecidableEq, Repr

namespace Level

/-- The number of a level; a heavier entry has a larger one. -/
def number : Level → Int
  | debug => 10
  | info => 20
  | warning => 30
  | error => 40
  | critical => 50

def name : Level → String
  | debug => "DEBUG"
  | info => "INFO"
  | warning => "WARNING"
  | error => "ERROR"
  | critical => "CRITICAL"

def every : List Level := [debug, info, warning, error, critical]

end Level

def levelName (n : Int) : String :=
  match Level.every.find? fun level => level.number == n with
  | some level => level.name
  | none => if n = 0 then "NOTSET" else "Level " ++ Text.intText n

end EarningsLedger.Log
