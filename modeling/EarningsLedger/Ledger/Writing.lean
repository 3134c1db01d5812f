import EarningsLedger.Ledger.Reading

/-!
# Writing operations

New earnings, one or many at a time, and changes of an amount. Each works in one
session, so a call that fails leaves the store as it was. A change moves the stamp of
the earning forward by at least a microsecond, even when the clock stands still or runs
back.
-/

namespace EarningsLedger

open Calendar Log Storage

namespace Writing

/-- A result, its log entries, and the store that is left. -/
structure Written (α : Type) where
  audited : Audited α
  store : Store

def unchanged {α : Type} (store : Store) (audited : Audited α) : Written α := ⟨audited, store⟩

/-- Goes on with a checked request; one that failed its check leaves the store alone. -/
def afterCheck {α β : Type} (store : Store) (checked : Audited α) (next : α → Written β) :
    Written β :=
  match checked.outcome with
  | .error failure => ⟨⟨checked.entries, .error failure⟩, store⟩
  | .ok a =>
    let done := next a
    ⟨⟨checked.entries ++ done.audited.entries, done.audited.outcome⟩, done.store⟩

/-! ## New earnings -/

/-- Stores rows in one go: every number must fit its cell before the first is stored. -/
def insertRows (cells : List Cells) : Work Table Fault (List Row) := fun table =>
  if cells.all Cells.storable then appendRows cells table else (table, .error .tooLarge)

def storeDrafts (env : Environment) (drafts : List Draft) : Work Store Fault (List Row) :=
  fun store =>
    match strike env.injection .commit with
    | .error fault => (store, .error fault)
    | .ok _ => onTable (insertRows (drafts.map fun draft => Earning.cellsOf draft env.now)) store

/-- The earnings of drafts and the rows they were stored in. -/
def earningsOf (env : Environment) (drafts : List Draft) (rows : List Row) : List Earning :=
  List.zipWith (fun draft row => Earning.ofDraft draft env.now row.id) drafts rows

def createSignature : Binding.Signature :=
  ⟨"EarningsService.create", some "self",
    [⟨"miner_id", false⟩, ⟨"pool_id", false⟩, ⟨"challenge_id", false⟩, ⟨"amount", true⟩], false⟩

/-- An amount that may be left out: nothing is earned then. -/
def givenAmount (amount : Value) : Value := if amount.isNull then .int 0 else amount

def admitDraft (arguments : Fields) : Audited Draft := do
  let bound ← Audited.ofExcept ((createSignature.bind [] arguments).mapError Failure.misuse)
  let given (name : String) := (bound.given.get? name).getD .null
  approve Draft.check "db_create_earning_invalid"
    [("miner_id", given "miner_id"), ("pool_id", given "pool_id"),
     ("challenge_id", given "challenge_id"), ("amount", givenAmount (given "amount"))]

def createdEntry (earning : Earning) : Audited Unit :=
  Audited.log .info ("Начисление создано: " ++ Text.intText earning.id)
    [eventField "earning_created", ("earning_id", .int earning.id),
     ("miner_id", .int earning.miner), ("pool_id", .int earning.pool),
     ("challenge_id", .int earning.challenge), ("amount", .int earning.amount)]

def createDraft (env : Environment) (store : Store) (draft : Draft) : Written Earning :=
  match session (storeDrafts env [draft]) store with
  | (after, .error fault) =>
    ⟨writeFault fault (.int draft.amount.val) "Ошибка создания начисления"
      "db_create_earning_error" draft.owner.fields, after⟩
  | (after, .ok rows) =>
    match earningsOf env [draft] rows with
    | earning :: _ => ⟨do createdEntry earning; pure earning, after⟩
    | [] => ⟨Audited.fail (.fault .full), after⟩

def create (env : Environment) (store : Store) (arguments : Fields) : Written Earning :=
  afterCheck store (admitDraft arguments) (createDraft env store)

/-! ## Many new earnings -/

/-- Checks an item of a batch. A draft has been checked before. -/
def admitItem (item : Value) : Audited Draft :=
  match item with
  | .draft draft => pure draft
  | other => do
    let entries ← Audited.ofExcept ((Binding.entriesOf other).mapError Failure.misuse)
    let filled := entries.map fun entry =>
      if entry.1.same (.text "amount") then (entry.1, givenAmount entry.2) else entry
    let named ← Audited.ofExcept ((Binding.namesOf filled).mapError Failure.misuse)
    approve Draft.check "db_create_earnings_batch_invalid" named

/-- Checks the items of a batch in order, up to the first that fails. -/
def admitItems : List Value → Audited (List Draft)
  | [] => pure []
  | item :: rest => do
    let first ← admitItem item
    let others ← admitItems rest
    pure (first :: others)

def admitBatch (batch : Value) : Audited (List Draft) := do
  let items ← Audited.ofExcept ((Binding.items batch).mapError Failure.misuse)
  admitItems items

def largestAmount (drafts : List Draft) : Int :=
  drafts.foldl (fun top draft => max top draft.amount.val) 0

def totalAmount (earnings : List Earning) : Int :=
  earnings.foldr (fun earning total => earning.amount + total) 0

def batchEntry (earnings : List Earning) : Audited Unit :=
  let edge (earning : Option Earning) := Value.ofInt? (earning.map Earning.id)
  Audited.log .info
    ("Пакет начислений сохранен: " ++ Text.natText earnings.length ++ " шт.")
    [eventField "earnings_batch_created", ("count", .int earnings.length),
     ("total_amount", .int (totalAmount earnings)), ("first_id", edge earnings.head?),
     ("last_id", edge earnings.getLast?)]

/-- Stores checked drafts, all or none. -/
def createDrafts (env : Environment) (store : Store) (drafts : List Draft) :
    Written (List Earning) :=
  if drafts.isEmpty then
    unchanged store do
      Audited.log .debug "Пустой пакет начислений" [eventField "db_create_earnings_batch_empty"]
      pure []
  else
    match session (storeDrafts env drafts) store with
    | (after, .error fault) =>
      ⟨writeFault fault (.int (largestAmount drafts)) "Ошибка пакетной вставки начислений"
        "db_create_earnings_batch_error" [("batch_size", .int drafts.length)], after⟩
    | (after, .ok rows) =>
      let earnings := earningsOf env drafts rows
      ⟨do batchEntry earnings; pure earnings, after⟩

/-- Many new earnings, all or none. -/
def createBatch (env : Environment) (store : Store) (batch : Value) : Written (List Earning) :=
  afterCheck store (admitBatch batch) (createDrafts env store)

/-! ## Changes of an amount -/

/-- Why a change was not made. -/
inductive Halt where
  | unknown
  | outOfRange (old new : Int)
  | fault (fault : Fault) (amount : Value)
  deriving Repr

/-- A change that was made. -/
structure Change where
  old : Int
  earning : Earning
  deriving DecidableEq, Repr

/-- A changed earning: the new amount, and a stamp after the previous one. -/
def changed (env : Environment) (earning : Earning) (new : Int) : Except Halt Earning :=
  if !isAmount new then .error (.outOfRange earning.amount new)
  else
    match nextStamp? env.now (some earning.updated) with
    | none => .error (.fault .badDate (.int new))
    | some stamp => .ok { earning with amount := new, updated := .plain stamp }

def writeChange (env : Environment) (table : Table) (earning : Earning) :
    Table × Except Halt Unit :=
  match strike env.injection .commit with
  | .error fault => (table, .error (.fault fault (.int earning.amount)))
  | .ok _ =>
    if isStorable earning.amount then
      let stamp := earning.updated.reading.storedText
      (table.amend env.databaseNow.milliText earning.id fun cells =>
        { cells with amount := earning.amount, updated := stamp }, .ok ())
    else (table, .error (.fault .tooLarge (.int earning.amount)))

/-- Changes the amount of the row of an identifier. -/
def changeRow (env : Environment) (id : Int) (compute : Int → Int) : Work Table Halt Change :=
  fun table =>
    match table.find? id with
    | none => (table, .error .unknown)
    | some row =>
      match Earning.ofRow row with
      | .error fault => (table, .error (.fault fault .null))
      | .ok earning =>
        match changed env earning (compute earning.amount) with
        | .error halt => (table, .error halt)
        | .ok after =>
          match writeChange env table after with
          | (left, .error halt) => (left, .error halt)
          | (left, .ok _) => (left, .ok ⟨earning.amount, after⟩)

/-- Changes the amount of an earning in a store. -/
def changeStore (env : Environment) (id : Int) (compute : Int → Int) : Work Store Halt Change :=
  fun store =>
    match strike env.injection .execute with
    | .error fault => (store, .error (.fault fault .null))
    | .ok _ =>
      match store with
      | none => (none, .error (.fault .noTable .null))
      | some table =>
        let done := changeRow env id compute table
        (some done.1, done.2)

def changedEntry (change : Change) : Audited Unit :=
  Audited.log .info ("Начисление обновлено: " ++ Text.intText change.earning.id)
    [eventField "earning_updated", ("earning_id", .int change.earning.id),
     ("old_amount", .int change.old), ("new_amount", .int change.earning.amount),
     ("updated_at", .text change.earning.updated.isoText)]

/-- Reports why a change was not made. An amount out of range is noticed where the change
is computed, and reported once more as an error of the session. -/
def reportHalt {α : Type} (id : Int) (event message : String) : Halt → Audited α
  | .unknown => Reading.notFound (event ++ "_not_found") (.int id)
  | .outOfRange old new => do
    Audited.log .warning "Сумма начисления вне диапазона"
      [eventField (event ++ "_overflow"), ("earning_id", .int id), ("old_amount", .int old),
       ("new_amount", .int new)]
    let error : LedgerError := .overflow (.int new) .null
    report ⟨error.message, error.kind.name⟩ (.overflow (.int new) (.text error.message)) message
      (event ++ "_error") [("earning_id", .int id)]
  | .fault fault amount =>
    writeFault fault amount message (event ++ "_error") [("earning_id", .int id)]

/-- Changes the amount of an earning by a computation on the old amount. -/
def change (env : Environment) (store : Store) (id : Int) (compute : Int → Int)
    (event message : String) : Written Earning :=
  if isKey id then
    match session (changeStore env id compute) store with
    | (after, .error halt) => ⟨reportHalt id event message halt, after⟩
    | (after, .ok made) => ⟨do changedEntry made; pure made.earning, after⟩
  else unchanged store (Reading.notFound (event ++ "_not_found") (.int id))

/-- Checks the arguments of a change: the identifier first. -/
def admitChange {α : Type} (id : Value) (check : Fields → Check.Verdict α) (named : Fields)
    (event : String) : Audited (Int × α) := do
  let n ← admitId id event
  let a ← approve check event named
  pure (n, a)

def updateAmount (env : Environment) (store : Store) (id amount : Value) : Written Earning :=
  afterCheck store (admitChange id checkAmount [("amount", amount)] "db_update_earning_invalid")
    fun found => change env store found.1 (fun _ => found.2.val) "db_update_earning"
      "Ошибка обновления начисления"

def addAmount (env : Environment) (store : Store) (id delta : Value) : Written Earning :=
  afterCheck store (admitChange id checkDelta [("delta", delta)] "db_adjust_earning_invalid")
    fun found => change env store found.1 (fun old => old + found.2) "db_adjust_earning"
      "Ошибка изменения суммы начисления"

end Writing

end EarningsLedger
