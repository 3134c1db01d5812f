import EarningsLedger.Storage.Session

/-!
# Selections

A selection picks the rows of an owner, and those behind an identifier. Rows come in
the order of their identifiers, so a page of a selection is a part of one list. Sums
are exact, and a sum that no cell can hold is a fault.
-/

namespace EarningsLedger.Storage

/-- Which rows to pick. -/
structure Selection where
  miner : Option Int
  pool : Option Int
  challenge : Option Int
  after : Option Int
  deriving DecidableEq, Repr

namespace Selection

/-- Whether a number is the one asked for, if one is. -/
def agrees (asked : Option Int) (n : Int) : Bool :=
  match asked with
  | some wanted => n == wanted
  | none => true

def admits (selection : Selection) (row : Row) : Bool :=
  agrees selection.miner row.cells.miner && agrees selection.pool row.cells.pool &&
    agrees selection.challenge row.cells.challenge &&
    (match selection.after with
     | some id => decide (id < row.id)
     | none => true)

/-- Whether the driver can take every number of a selection. -/
def storable (selection : Selection) : Bool :=
  [selection.miner, selection.pool, selection.challenge, selection.after].all fun asked =>
    (asked.map isStorable).getD true

end Selection

/-- The picked rows, in the order of their identifiers. -/
def Table.select (table : Table) (selection : Selection) : List Row :=
  table.rows.filter selection.admits

/-- A part of a list: the items behind the first `skip`, no more than `limit` of them
unless the limit is negative. -/
def pageOf {α : Type} (skip : Nat) (limit : Int) (items : List α) : List α :=
  if limit < 0 then items.drop skip else (items.drop skip).take limit.toNat

/-- The exact sum of the amounts of rows. -/
def sumAmounts (rows : List Row) : Int := rows.foldr (fun row total => row.cells.amount + total) 0

/-- A sum, if a cell can hold it. -/
def checkedSum (rows : List Row) : Except Fault Int :=
  if storedHigh < sumAmounts rows then .error .sumTooLarge else .ok (sumAmounts rows)

/-- Puts a number in its place in an ascending list without repetitions. -/
def insertMiner (n : Int) : List Int → List Int
  | [] => [n]
  | m :: rest =>
    if n < m then n :: m :: rest
    else if n = m then m :: rest
    else m :: insertMiner n rest

/-- The miners of rows, ascending, each once. -/
def minersOf (rows : List Row) : List Int :=
  rows.foldr (fun row miners => insertMiner row.cells.miner miners) []

/-- The sum of each miner, in the order of the miners. -/
def minerSums (rows : List Row) : Except Fault (List (Int × Int)) :=
  (minersOf rows).mapM fun miner =>
    (checkedSum (rows.filter fun row => row.cells.miner == miner)).map fun total => (miner, total)

end EarningsLedger.Storage
