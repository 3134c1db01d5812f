/-!
# Directories

A directory keeps the one ledger that all parts of a program share, and makes it only
when somebody asks for it. Ledgers are told apart by a number given to each when it is
made. Besides the directory a caller builds there is the one of the program, whose
ledger always stands on the usual database.
-/

namespace EarningsLedger

/-- Where a ledger gets its sessions from. -/
inductive Supply where
  | usual
  | own
  deriving DecidableEq, Repr

/-- A ledger that was made. -/
structure Made where
  number : Nat
  supply : Supply
  deriving DecidableEq, Repr

/-- A place for one ledger, filled at the first use. -/
structure Directory where
  supply : Supply
  held : Option Made
  deriving DecidableEq, Repr

namespace Directory

def fresh (supply : Supply) : Directory := ⟨supply, none⟩

def isFilled (directory : Directory) : Bool := directory.held.isSome

/-- The ledger of a directory, the directory that holds it, and the number for the next
ledger that is made. -/
def ledger (next : Nat) (directory : Directory) : Made × Directory × Nat :=
  match directory.held with
  | some made => (made, directory, next)
  | none =>
    let made := ⟨next, directory.supply⟩
    (made, { directory with held := some made }, next + 1)

/-- A directory gives the same ledger again. -/
theorem ledger_ledger (next later : Nat) (directory : Directory) :
    ((directory.ledger next).2.1.ledger later).1 = (directory.ledger next).1 := by
  unfold ledger
  cases held : directory.held <;> simp [held]

end Directory

end EarningsLedger
