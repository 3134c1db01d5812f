import EarningsLedger.Storage.Table

/-!
# Sessions

Work on the table is done in a session. A session that ends well leaves the table as
the work left it; one that fails leaves the table as it was, whatever the work had done
before it failed. For trials, a fault can be made to strike in place of one of the
operations of a session.
-/

namespace EarningsLedger.Storage

/-- The operations of a session that a fault can replace. -/
inductive Point where
  | execute
  | get
  | commit
  deriving DecidableEq, Repr

/-- A fault made to strike in place of an operation. -/
structure Injection where
  point : Point
  fault : Fault
  deriving DecidableEq, Repr

/-- Lets the injected fault strike if it is meant for this operation. -/
def strike (injection : Option Injection) (point : Point) : Except Fault Unit :=
  match injection with
  | some given => if given.point = point then .error given.fault else .ok ()
  | none => .ok ()

/-- What work on a state leaves, and how it ends. -/
abbrev Work (σ ε α : Type) := σ → σ × Except ε α

/-- Runs work in a session: a failure takes back everything the work did. -/
def session {σ ε α : Type} (work : Work σ ε α) (before : σ) : σ × Except ε α :=
  match work before with
  | (after, .ok result) => (after, .ok result)
  | (_, .error trouble) => (before, .error trouble)

/-- A session that fails changes nothing. -/
theorem session_of_error {σ ε α : Type} {work : Work σ ε α} {before : σ} {trouble : ε}
    (failed : (session work before).2 = .error trouble) : (session work before).1 = before := by
  unfold session at failed ⊢
  split at failed
  · simp at failed
  · rfl

/-! ## Inserting -/

/-- Whether a cell can hold every number of a row. -/
def Cells.storable (cells : Cells) : Bool :=
  isStorable cells.miner && isStorable cells.pool && isStorable cells.challenge &&
    isStorable cells.amount

def appendRow (cells : Cells) : Work Table Fault Row := fun table =>
  match table.append? cells with
  | some (after, row) => (after, .ok row)
  | none => (table, .error .full)

/-- Inserts rows one after another, and stops at the first that fails. -/
def appendRows : List Cells → Work Table Fault (List Row)
  | [], table => (table, .ok [])
  | cells :: rest, table =>
    match appendRow cells table with
    | (after, .error fault) => (after, .error fault)
    | (after, .ok row) =>
      match appendRows rest after with
      | (last, .ok rows) => (last, .ok (row :: rows))
      | (last, .error fault) => (last, .error fault)

/-- The store: a table, unless it was dropped. -/
abbrev Store := Option Table

/-- Work on the table of a store; a store without one refuses every statement. -/
def onTable {α : Type} (work : Work Table Fault α) : Work Store Fault α
  | none => (none, .error .noTable)
  | some table =>
    let done := work table
    (some done.1, done.2)

end EarningsLedger.Storage
