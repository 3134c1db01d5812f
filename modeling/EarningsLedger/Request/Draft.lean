import EarningsLedger.Check.Rule

/-!
# Requests for drafts and changes

What a caller sends to open an earning, to set its amount or to change it. A draft may
leave its amount out, which then is zero.
-/

namespace EarningsLedger

open Check

/-! ## Drafts -/

/-- The three numbers that say whose earning it is. -/
structure Owner where
  miner : Key
  pool : Key
  challenge : Key
  deriving DecidableEq, Repr

namespace Owner

def check (fields : Fields) : Verdict Owner :=
  (Verdict.both (required fields "miner_id" key)
    (Verdict.both (required fields "pool_id" key) (required fields "challenge_id" key))).map
    fun found => ⟨found.1, found.2.1, found.2.2⟩

def fields (owner : Owner) : Fields :=
  [("miner_id", .ofKey owner.miner), ("pool_id", .ofKey owner.pool),
   ("challenge_id", .ofKey owner.challenge)]

end Owner

namespace Draft

def check (fields : Fields) : Verdict Draft :=
  (Verdict.both (Owner.check fields) (field fields "amount" (some Amount.nothing) Check.amount)).map
    fun found => ⟨found.1.miner, found.1.pool, found.1.challenge, found.2⟩

def owner (draft : Draft) : Owner := ⟨draft.miner, draft.pool, draft.challenge⟩

def fields (draft : Draft) : Fields := draft.owner.fields ++ [("amount", .int draft.amount.val)]

end Draft

/-! ## Changes -/

def checkAmount (fields : Fields) : Verdict Amount := required fields "amount" Check.amount

def checkDelta (fields : Fields) : Verdict Int := required fields "delta" delta

end EarningsLedger
