import EarningsLedger.Ledger.ErrorCause
import EarningsLedger.Log.Entry

/-!
# Audited operations

An operation of the ledger comes to an outcome and writes log entries on the way. A
call that does not return ends in a `Failure`: an error of the ledger, or something that
the ledger lets through.
-/

namespace EarningsLedger

open Log Storage

/-- How a call that does not return ends. -/
inductive Failure where
  | ledger (error : LedgerError)
  | fault (fault : Fault)
  | issues (issues : Check.Issues)
  | misuse (misuse : Binding.Misuse)
  deriving Repr

/-- How a call ends that raises an error. Where the error cannot be made, the fault of making
it ends the call instead. -/
def LedgerError.raised (error : LedgerError) : Failure :=
  if error.isWorded then .ledger error else .fault .tooManyDigits

/-- An outcome, and the log entries written on the way to it. -/
structure Audited (α : Type) where
  entries : List Entry
  outcome : Except Failure α
  deriving Repr

namespace Audited

variable {α β : Type}

/-- Goes on with an outcome; a failure ends it there. -/
def andThen (first : Audited α) (next : α → Audited β) : Audited β :=
  match first.outcome with
  | .error failure => ⟨first.entries, .error failure⟩
  | .ok a =>
    let rest := next a
    ⟨first.entries ++ rest.entries, rest.outcome⟩

instance : Monad Audited where
  pure a := ⟨[], .ok a⟩
  bind := andThen

def log (level : Level) (message : String) (fields : Fields) : Audited Unit :=
  ⟨[⟨level, message, fields⟩], .ok ()⟩

def fail (failure : Failure) : Audited α := ⟨[], .error failure⟩

def ofExcept (outcome : Except Failure α) : Audited α := ⟨[], outcome⟩

end Audited

def eventField (event : String) : String × Value := ("event", .text event)

end EarningsLedger
