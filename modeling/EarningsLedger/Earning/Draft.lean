import EarningsLedger.Earning.Bounds

/-!
# Drafts

A draft is an earning as it is asked for, before the table gives it an identifier and
time stamps. All its numbers are in range by construction.
-/

namespace EarningsLedger

/-- An earning that has been checked but not stored. -/
structure Draft where
  miner : Key
  pool : Key
  challenge : Key
  amount : Amount
  deriving DecidableEq, Repr

end EarningsLedger
