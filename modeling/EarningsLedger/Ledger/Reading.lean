import EarningsLedger.Ledger.Environment
import EarningsLedger.Request.Page
import EarningsLedger.Storage.Selection

/-!
# Reading operations

Single earnings by identifier, pages of a filter, and the counts and sums of a filter.
None of them changes the store. Sums and counts look at the owner's numbers only; a
count also at the last identifier seen, when it is asked to.
-/

namespace EarningsLedger

open Log Storage

namespace Reading

/-! ## Selections -/

def selectionOf (f : Filter) (withCursor : Bool) : Selection where
  miner := f.miner.map Key.val
  pool := f.pool.map Key.val
  challenge := f.challenge.map Key.val
  after := if withCursor then f.after.map Int.ofNat else none

def rows (env : Environment) (store : Store) (selection : Selection) : Except Fault (List Row) := do
  strike env.injection .execute
  match store with
  | none => throw .noTable
  | some table => if selection.storable then pure (table.select selection) else throw .tooLarge

/-! ## Single earnings -/

/-- The earning of an identifier in a store. -/
def earningAt (env : Environment) (store : Store) (id : Int) : Except Fault (Option Earning) := do
  strike env.injection .get
  match store with
  | none => throw .noTable
  | some table =>
    match table.find? id with
    | none => pure none
    | some row => (Earning.ofRow row).map some

/-- The earning of an identifier, if there is one. -/
def get (env : Environment) (store : Store) (id : Value) : Audited (Option Earning) := do
  let n ← admitId id "db_get_earning_invalid"
  if isKey n then
    let found ← readOutcome (earningAt env store n) "Ошибка получения начисления"
      "db_get_earning_error" [("earning_id", .int n)]
    Audited.log .debug "Получение начисления по id"
      [eventField "db_get_earning", ("earning_id", .int n), ("found", .bool found.isSome)]
    pure found
  else pure none

/-- Reports that there is no earning of an identifier. -/
def notFound {α : Type} (event : String) (id : Value) : Audited α := do
  Audited.log .warning "Начисление не найдено" [eventField event, ("earning_id", id)]
  Audited.fail (LedgerError.notFound id).raised

/-- The earning of an identifier, which must be there. -/
def getOrFail (env : Environment) (store : Store) (id : Value) : Audited Earning := do
  match ← get env store id with
  | some earning => pure earning
  | none => notFound "db_earning_not_found" id

/-! ## Pages -/

def pageRows (env : Environment) (store : Store) (f : Filter) : Except Fault (List Earning) := do
  let found ← rows env store (selectionOf f true)
  if isStorable f.skip && isStorable f.limit then (pageOf f.skip f.limit found).mapM Earning.ofRow
  else throw .tooLarge

/-- The earnings on the page of a filter. -/
def queryFilter (env : Environment) (store : Store) (f : Filter) : Audited (List Earning) := do
  let found ← readOutcome (pageRows env store f) "Ошибка выборки начислений"
    "db_query_earnings_error" f.fields.present
  Audited.log .debug "Выборка начислений"
    ([eventField "db_query_earnings", ("returned", .int found.length)] ++ f.fields.present)
  pure found

def countFilter (env : Environment) (store : Store) (f : Filter) (withCursor : Bool) :
    Audited Int :=
  readOutcome ((rows env store (selectionOf f withCursor)).map fun found => found.length)
    "Ошибка подсчета начислений" "db_count_earnings_error" []

/-- The receipts of earnings, or the issues of the first that makes none. -/
def receipts (earnings : List Earning) : Audited (List Receipt) :=
  Audited.ofExcept ((earnings.mapM Earning.receipt).mapError fun issues =>
    .issues ⟨"EarningResponse", issues⟩)

/-- The page of a filter and where it stands. -/
def pageOfFilter (env : Environment) (store : Store) (f : Filter) : Audited Page := do
  let found ← queryFilter env store f
  let total ← countFilter env store f true
  let shown ← receipts found
  pure ⟨shown, (PageInfo.of f.skip f.limit total found.length).fields⟩

/-! ## Sums -/

/-- The sum of the amounts under a filter. -/
def totalFilter (env : Environment) (store : Store) (f : Filter) : Audited Int :=
  readOutcome ((rows env store (selectionOf f false)).bind checkedSum)
    "Ошибка расчета суммы начислений" "db_total_amount_error" []

/-- The sum of each miner under owner numbers. -/
def totalsByMiner (env : Environment) (store : Store) (pool challenge miner : Value) :
    Audited (List (Int × Int)) := do
  let owner := [("pool_id", pool), ("challenge_id", challenge), ("miner_id", miner)]
  let f ← buildFilter env.limits none owner
  let sums ← readOutcome ((rows env store (selectionOf f false)).bind minerSums)
    "Ошибка расчета сумм по майнерам" "db_totals_by_miner_error" owner
  Audited.log .debug "Суммы начислений по майнерам"
    ([eventField "db_totals_by_miner"] ++ owner ++ [("miners", .int sums.length)])
  pure sums

def totalsOfFilter (env : Environment) (store : Store) (f : Filter) : Audited Totals := do
  let number (asked : Option Key) := Value.ofInt? (asked.map Key.val)
  let sums ← totalsByMiner env store (number f.pool) (number f.challenge) (number f.miner)
  let count ← countFilter env store f false
  let total ← totalFilter env store f
  pure ⟨count, total, sums⟩

end Reading

end EarningsLedger
