import EarningsLedger.Check.Rule

/-!
# Filters

A filter picks earnings by the numbers of their owner, and a page of them by position
or by the last identifier seen. `Filter.check` admits page lengths from 1 to 1000; the
ledger may afterwards lower the length to its own maximum.
-/

namespace EarningsLedger

open Check

/-- The part of a list that a page shows. -/
structure PageBounds where
  skip : Nat
  limit : Int
  deriving DecidableEq, Repr

namespace PageBounds

/-- The page length when none is asked for. -/
def usualLimit : Int := 100

/-- The longest page that can be asked for. -/
def longestLimit : Int := 1000

def check (fields : Fields) : Verdict PageBounds :=
  (Verdict.both (field fields "skip" (some 0) count)
    (field fields "limit" (some usualLimit) (bounded looseInt (some 1) (some longestLimit)))).map
    fun found => ⟨found.1, found.2⟩

def fields (bounds : PageBounds) : Fields :=
  [("skip", .int bounds.skip), ("limit", .int bounds.limit)]

end PageBounds

/-- A selection of earnings. -/
structure Filter where
  skip : Nat
  limit : Int
  miner : Option Key
  pool : Option Key
  challenge : Option Key
  after : Option Nat
  deriving DecidableEq, Repr

namespace Filter

/-- The owner number under a name, if one is asked for. -/
def ownerNumber (fields : Fields) (name : String) : Verdict (Option Key) :=
  field fields name (some none) (optional key)

def check (fields : Fields) : Verdict Filter :=
  (Verdict.both (PageBounds.check fields)
    (Verdict.both (ownerNumber fields "miner_id")
      (Verdict.both (ownerNumber fields "pool_id")
        (Verdict.both (ownerNumber fields "challenge_id")
          (field fields "after_id" (some none) (optional count)))))).map
    fun ⟨bounds, miner, pool, challenge, after⟩ =>
      ⟨bounds.skip, bounds.limit, miner, pool, challenge, after⟩

def fields (f : Filter) : Fields :=
  [("skip", .int f.skip), ("limit", .int f.limit),
   ("miner_id", .ofInt? (f.miner.map Key.val)), ("pool_id", .ofInt? (f.pool.map Key.val)),
   ("challenge_id", .ofInt? (f.challenge.map Key.val)),
   ("after_id", .ofInt? (f.after.map Int.ofNat))]

/-- The filter with its page no longer than a maximum. -/
def capped (f : Filter) (maximum : Int) : Filter :=
  if maximum < f.limit then { f with limit := maximum } else f

end Filter

end EarningsLedger
