import EarningsLedger.Ledger.Admission
import EarningsLedger.Ledger.Earning

/-!
# What an operation depends on

Besides the store and its arguments an operation depends on the present, on the page
lengths in force, on the clock of the database, and, in trials, on a fault that is made
to strike. The module also holds what all operations do when the store fails them: one
error entry in the log, and the error of the fault.
-/

namespace EarningsLedger

open Calendar Log Storage

/-- What an operation depends on besides the store. -/
structure Environment where
  now : Instant
  limits : Limits
  databaseNow : Instant
  injection : Option Injection
  deriving Repr

/-- An error met in the store: its text and its sort, as the log shows them. -/
structure Trouble where
  text : String
  sort : String
  deriving DecidableEq, Repr

/-- Reports an error met in the store, and ends in the error it becomes. The amounts of such
errors have been admitted or computed, so these errors can always be made. -/
def report {α : Type} (trouble : Trouble) (error : LedgerError) (message event : String)
    (context : Fields) : Audited α := do
  Audited.log .error message
    ([eventField event, ("error", .text trouble.text), ("error_type", .text trouble.sort),
      ("raised", .text error.kind.name)] ++ context)
  Audited.fail (.ledger error)

def reportFault {α : Type} (fault : Fault) (amount : Value) (message event : String)
    (context : Fields) : Audited α :=
  report ⟨fault.text, fault.kind.name⟩ (fault.error amount) message event context

/-- The outcome of reading the store: faults of storage are reported, others let through. -/
def readOutcome {α : Type} (outcome : Except Fault α) (message event : String)
    (context : Fields) : Audited α :=
  match outcome with
  | .ok a => pure a
  | .error fault =>
    if fault.kind.isStorage then reportFault fault .null message event context
    else Audited.fail (.fault fault)

/-- A fault met while writing: faults of storage and numbers too large are reported,
others let through. -/
def writeFault {α : Type} (fault : Fault) (amount : Value) (message event : String)
    (context : Fields) : Audited α :=
  if fault.kind.isStorage || fault.kind == .overflow then
    reportFault fault amount message event context
  else Audited.fail (.fault fault)

end EarningsLedger
