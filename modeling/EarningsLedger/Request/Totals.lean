import EarningsLedger.Check.Rule

/-!
# Totals

Totals hold the number of earnings, their sum, and the sum for each miner. The sums by
miner are a dictionary whose keys and values are loose integers.
-/

namespace EarningsLedger

open Check

/-- How many earnings there are and what they add up to. -/
structure Totals where
  count : Int
  amount : Int
  byMiner : List (Int × Int)
  deriving DecidableEq, Repr

/-- The step to an entry of a dictionary. -/
def entryStep : Value → PathStep
  | .text name => .name name
  | .int n => if beyondWord n then .name (Text.intText n) else .position n
  | .bool b => .position (if b then 1 else 0)
  | other => .name other.quotedText

/-- The verdict on an entry of a dictionary: on its key first, then on its value. -/
def entryVerdict {α β : Type} (keyRule : Rule α) (valueRule : Rule β) (entry : Value × Value) :
    Verdict (α × β) :=
  let step := entryStep entry.1
  Verdict.both (((keyRule entry.1).under (.name "[key]")).under step)
    ((valueRule entry.2).under step)

/-- Puts a sum under a miner's number, in its place when the number is present. -/
def putSum (sums : List (Int × Int)) (entry : Int × Int) : List (Int × Int) :=
  if sums.any fun other => other.1 == entry.1 then
    sums.map fun other => if other.1 == entry.1 then entry else other
  else sums ++ [entry]

def sumsByMiner : Rule (List (Int × Int))
  | .dict entries =>
    (Verdict.all (entries.map (entryVerdict looseInt looseInt))).map fun found =>
      found.foldl putSum []
  | other => .fail .notDictionary other

namespace Totals

def check (fields : Fields) : Verdict Totals :=
  (Verdict.both (required fields "count" looseInt)
    (Verdict.both (required fields "total_amount" looseInt)
      (field fields "by_miner" (some []) sumsByMiner))).map
    fun ⟨count, amount, byMiner⟩ => ⟨count, amount, byMiner⟩

def sumsValue (sums : List (Int × Int)) : Value :=
  .dict (sums.map fun entry => (.int entry.1, .int entry.2))

def fields (totals : Totals) : Fields :=
  [("count", .int totals.count), ("total_amount", .int totals.amount),
   ("by_miner", sumsValue totals.byMiner)]

end Totals

end EarningsLedger
