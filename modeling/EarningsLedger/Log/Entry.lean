import EarningsLedger.Log.Level
import EarningsLedger.Value.Basic

/-!
# Entries

What an operation writes to its log: a level, a sentence, and named values beside it.
-/

namespace EarningsLedger.Log

/-- One line of a log. -/
structure Entry where
  level : Level
  message : String
  fields : Fields
  deriving Repr

end EarningsLedger.Log
