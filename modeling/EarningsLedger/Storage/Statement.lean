import EarningsLedger.Calendar.Iso
import EarningsLedger.Storage.Session
import EarningsLedger.Value.Text

/-!
# Statements

Rows can also be inserted, changed and deleted by plain statements, past the ledger and
its checks. The table then guards itself: its numbers fit their cells, no cell is left
without a value, no amount is negative, and no identifier comes twice. A column left out
of an insertion takes its default, which for a stamp is the database's own clock.
-/

namespace EarningsLedger.Storage

open Calendar

/-- A plain statement. -/
inductive Statement where
  | insert (values : Fields)
  | update (id : Value) (values : Fields)
  | delete (id : Value)
  deriving Repr

namespace Statement

/-! ## Refusals -/

/-- An error of the database about a statement. -/
def refuse (name text : String) : Fault := .ofDatabase (.database name) text

/-- An error of the database about the integrity of the table. -/
def breach (text : String) : Fault := .ofDatabase .integrity text

def nullCell (column : String) : Fault := breach ("NOT NULL constraint failed: earnings." ++ column)

def negativeAmount : Fault := breach "CHECK constraint failed: ck_earnings_amount_unsigned"

def repeatedId : Fault := breach "UNIQUE constraint failed: earnings.id"

/-- A value of the wrong sort for its cell. -/
def wrongSort : Fault := breach "datatype mismatch"

/-! ## Columns and cells -/

/-- The columns of the table, in order. -/
def columns : List String :=
  ["id", "miner_id", "pool_id", "challenge_id", "amount", "created_at", "updated_at"]

def unknownColumn? (values : Fields) : Option String :=
  (values.map Prod.fst).find? fun name => !columns.contains name

def bindable : Value → Bool
  | .int n => isStorable n
  | _ => true

/-- The number in a cell; a truth value counts as one. -/
def numberCell (column : String) : Value → Except Fault Int
  | .null => .error (nullCell column)
  | .int n => .ok n
  | .bool b => .ok (if b then 1 else 0)
  | _ => .error wrongSort

def stampCell (column : String) : Value → Except Fault String
  | .null => .error (nullCell column)
  | other => .ok other.display

/-- The cells of a list of values, column by column. -/
def cellsOf (value : String → Value) : Except Fault Cells := do
  let miner ← numberCell "miner_id" (value "miner_id")
  let pool ← numberCell "pool_id" (value "pool_id")
  let challenge ← numberCell "challenge_id" (value "challenge_id")
  let amount ← numberCell "amount" (value "amount")
  let created ← stampCell "created_at" (value "created_at")
  let updated ← stampCell "updated_at" (value "updated_at")
  if amount < 0 then throw negativeAmount
  pure ⟨miner, pool, challenge, amount, created, updated⟩

/-! ## Running a statement -/

/-- The default of a column that is left out. -/
def defaultOf (clock : String) (column : String) : Value :=
  if column = "amount" then .int 0
  else if column = "created_at" ∨ column = "updated_at" then .text clock
  else .null

def insertRow (clock : String) (values : Fields) (table : Table) : Table × Except Fault Nat :=
  let value (column : String) := (values.get? column).getD (defaultOf clock column)
  let cells := cellsOf value
  let placed : Except Fault Table := do
    match value "id" with
    | .null =>
      if storedHigh ≤ table.highest then throw .full
      match table.append? (← cells) with
      | some (after, _) => pure after
      | none => throw .full
    | given =>
      let id ← numberCell "id" given
      match table.insert? ⟨id, ← cells⟩ with
      | some after => pure after
      | none => throw repeatedId
  match placed with
  | .ok after => (after, .ok 1)
  | .error fault => (table, .error fault)

/-- The value of a column of a row. -/
def columnValue (row : Row) (column : String) : Value :=
  if column = "id" then .int row.id
  else if column = "miner_id" then .int row.cells.miner
  else if column = "pool_id" then .int row.cells.pool
  else if column = "challenge_id" then .int row.cells.challenge
  else if column = "amount" then .int row.cells.amount
  else if column = "created_at" then .text row.cells.created
  else .text row.cells.updated

def moveRow (table : Table) (row : Row) (id : Int) : Except Fault Table :=
  if row.id = id then .ok table
  else if table.uses id then .error repeatedId
  else
    match (table.erase row.id).insert? ⟨id, row.cells⟩ with
    | some after => .ok { after with counter := table.counter }
    | none => .error repeatedId

def updateRow (clock : String) (row : Row) (values : Fields) (table : Table) :
    Table × Except Fault Nat :=
  let value (column : String) := (values.get? column).getD (columnValue row column)
  let changed : Except Fault Table := do
    let id ← numberCell "id" (value "id")
    let cells ← cellsOf value
    let after := table.amend clock row.id fun _ => cells
    moveRow after ⟨row.id, table.stamped clock row.cells cells⟩ id
  match changed with
  | .ok after => (after, .ok 1)
  | .error fault => (table, .error fault)

def rowOf (table : Table) : Value → Option Row
  | .int n => table.find? n
  | .bool b => table.find? (if b then 1 else 0)
  | _ => none

/-- Runs a statement on a table: what it leaves, and how many rows it touched. The
database's clock shows whole seconds in defaults and milliseconds in the trigger. -/
def runOn (now : Instant) (statement : Statement) (table : Table) : Table × Except Fault Nat :=
  match statement with
  | insert values =>
    match unknownColumn? values with
    | some name =>
      (table, .error (refuse "OperationalError" ("table earnings has no column named " ++ name)))
    | none =>
      if values.all fun field => bindable field.2 then insertRow now.secondText values table
      else (table, .error .tooLarge)
  | update id values =>
    match unknownColumn? values with
    | some name => (table, .error (refuse "OperationalError" ("no such column: " ++ name)))
    | none =>
      if bindable id && values.all fun field => bindable field.2 then
        match rowOf table id with
        | some row => updateRow now.milliText row values table
        | none => (table, .ok 0)
      else (table, .error .tooLarge)
  | delete id =>
    if bindable id then
      match rowOf table id with
      | some row => (table.erase row.id, .ok 1)
      | none => (table, .ok 0)
    else (table, .error .tooLarge)

/-- Runs a statement in a session of its own. -/
def run (now : Instant) (statement : Statement) (store : Store) : Store × Except Fault Nat :=
  session (onTable (statement.runOn now)) store

end Statement

end EarningsLedger.Storage
