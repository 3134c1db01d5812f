import EarningsLedger.Ledger.Writing
import EarningsLedger.Storage.Statement

/-!
# Calls of the ledger

`Call` lists everything a caller can ask of the ledger, `Answer` what may come back, and
`Call.run` answers one call in an environment: the outcome, the log entries written on
the way, and the store that is left.
-/

namespace EarningsLedger

open Log Storage

/-- What a caller can ask for. -/
inductive Call where
  | create (arguments : Fields)
  | createBatch (batch : Value)
  | get (id : Value)
  | getOrFail (id : Value)
  | query (ready : Option Filter) (named : Value)
  | queryPage (ready : Option Filter) (named : Value)
  | count (ready : Option Filter) (withCursor : Option Value) (named : Value)
  | totalAmount (ready : Option Filter) (named : Value)
  | totalsByMiner (pool challenge miner : Value)
  | summarize (ready : Option Filter) (named : Value)
  | updateAmount (id amount : Value)
  | addAmount (id delta : Value)
  deriving Repr

/-- What comes back from a call. -/
inductive Answer where
  | earning (earning : Earning)
  | nothing
  | earnings (earnings : List Earning)
  | page (page : Page)
  | number (n : Int)
  | sums (sums : List (Int × Int))
  | totals (totals : Totals)
  deriving Repr

/-- The answer to a call, its log entries, and the store that is left. -/
structure Reply where
  outcome : Except Failure Answer
  entries : List Entry
  store : Store

namespace Call

/-- The reply of an operation that only reads. -/
def reading (store : Store) (audited : Audited Answer) : Reply :=
  ⟨audited.outcome, audited.entries, store⟩

def writing {α : Type} (answer : α → Answer) (written : Writing.Written α) : Reply :=
  ⟨written.audited.outcome.map answer, written.audited.entries, written.store⟩

/-- The filter of a request on a filter. -/
def filterFor (env : Environment) (operation : String) (ready : Option Filter) (named : Value) :
    Audited Filter := do
  let bound ← filterNames operation [] named
  buildFilter env.limits ready bound.extras

/-- The number of earnings under a filter; the cursor counts when it is asked for, either
beside the names or among them. -/
def countFor (env : Environment) (store : Store) (ready : Option Filter)
    (withCursor : Option Value) (named : Value) : Audited Answer := do
  let bound ← filterNames "count" [⟨"with_cursor", true⟩] named
  let flag ← match withCursor, bound.given.get? "with_cursor" with
    | some _, some _ =>
      Audited.fail (.misuse (.repeatedKeyword
        "pool_earnings.services.earnings_service.EarningsService.count" "with_cursor"))
    | some flag, none => pure flag
    | none, found => pure (found.getD (.bool false))
  let f ← buildFilter env.limits ready bound.extras
  .number <$> Reading.countFilter env store f flag.isSomething

def run (env : Environment) (store : Store) : Call → Reply
  | create arguments => writing .earning (Writing.create env store arguments)
  | createBatch batch => writing .earnings (Writing.createBatch env store batch)
  | get id => reading store do
    match ← Reading.get env store id with
    | some earning => pure (.earning earning)
    | none => pure .nothing
  | getOrFail id => reading store (.earning <$> Reading.getOrFail env store id)
  | query ready named => reading store do
    let f ← filterFor env "query" ready named
    .earnings <$> Reading.queryFilter env store f
  | queryPage ready named => reading store do
    let f ← filterFor env "query_page" ready named
    .page <$> Reading.pageOfFilter env store f
  | count ready withCursor named => reading store (countFor env store ready withCursor named)
  | totalAmount ready named => reading store do
    let f ← filterFor env "total_amount" ready named
    .number <$> Reading.totalFilter env store f
  | totalsByMiner pool challenge miner =>
    reading store (.sums <$> Reading.totalsByMiner env store pool challenge miner)
  | summarize ready named => reading store do
    let f ← filterFor env "summarize" ready named
    .totals <$> Reading.totalsOfFilter env store f
  | updateAmount id amount => writing .earning (Writing.updateAmount env store id amount)
  | addAmount id delta => writing .earning (Writing.addAmount env store id delta)

end Call

end EarningsLedger
