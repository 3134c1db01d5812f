import EarningsLedger.Calendar.Stamp
import EarningsLedger.Request.Receipt
import EarningsLedger.Storage.Session

/-!
# Earnings

An earning is a row as the ledger hands it out: the same numbers, and the stored stamps
as moments. The ledger itself stores stamps without a distance from universal time.
-/

namespace EarningsLedger

open Calendar Storage

/-- A stored earning, as handed out. -/
structure Earning where
  id : Int
  miner : Int
  pool : Int
  challenge : Int
  amount : Int
  created : Moment
  updated : Moment
  deriving DecidableEq, Repr

namespace Earning

def readStamp (text : String) : Except Fault Moment :=
  (Moment.readStamp text).mapError fun trouble => .badStamp (trouble.message text)

def ofRow (row : Row) : Except Fault Earning := do
  let created ← readStamp row.cells.created
  let updated ← readStamp row.cells.updated
  pure ⟨row.id, row.cells.miner, row.cells.pool, row.cells.challenge, row.cells.amount,
    created, updated⟩

def fields (e : Earning) : Fields :=
  [("id", .int e.id), ("miner_id", .int e.miner), ("pool_id", .int e.pool),
   ("challenge_id", .int e.challenge), ("amount", .int e.amount),
   ("created_at", .moment e.created), ("updated_at", .moment e.updated)]

/-- The cells of a draft stored at an instant. -/
def cellsOf (draft : Draft) (now : Instant) : Cells :=
  ⟨draft.miner.val, draft.pool.val, draft.challenge.val, draft.amount.val,
    now.storedText, now.storedText⟩

/-- The earning of a draft stored at an instant under an identifier. -/
def ofDraft (draft : Draft) (now : Instant) (id : Int) : Earning :=
  ⟨id, draft.miner.val, draft.pool.val, draft.challenge.val, draft.amount.val, .plain now,
    .plain now⟩

def receipt (e : Earning) : Check.Verdict Receipt := Receipt.check e.fields

end Earning

end EarningsLedger
