import EarningsLedger.Earning.Bounds
import EarningsLedger.Storage.Fault

/-!
# The table of earnings

Rows are kept in the order of their identifiers, and no identifier comes twice; both
are part of the type. The table remembers the largest identifier it ever handed out, so
that an identifier is not used again after its row is gone. A table may carry a trigger
that stamps a changed row unless the change brought a stamp of its own.
-/

namespace EarningsLedger.Storage

/-- The stored parts of an earning without its identifier. -/
structure Cells where
  miner : Int
  pool : Int
  challenge : Int
  amount : Int
  created : String
  updated : String
  deriving DecidableEq, Repr

/-- A stored earning. -/
structure Row where
  id : Int
  cells : Cells
  deriving DecidableEq, Repr

/-- Rows in the order of their identifiers, each identifier once. -/
def Ascending (rows : List Row) : Prop := rows.Pairwise fun a b => a.id < b.id

/-- The stored earnings. -/
structure Table where
  rows : List Row
  counter : Int
  trigger : Bool
  ascending : Ascending rows

namespace Table

def empty (trigger : Bool) : Table := ⟨[], 0, trigger, .nil⟩

/-! ## Looking up -/

def find? (table : Table) (id : Int) : Option Row := table.rows.find? fun row => row.id == id

/-- The order of the identifiers keeps two rows of one identifier from being different. -/
theorem row_unique {table : Table} {row other : Row} (here : row ∈ table.rows)
    (there : other ∈ table.rows) (same : row.id = other.id) : row = other := by
  have apart := table.ascending
  generalize table.rows = rows at here there apart
  induction rows with
  | nil => cases here
  | cons first rest ih =>
    have parts := List.pairwise_cons.mp apart
    rcases List.mem_cons.mp here with rfl | later
    · rcases List.mem_cons.mp there with rfl | behind
      · rfl
      · have lower := parts.1 other behind
        omega
    · rcases List.mem_cons.mp there with rfl | behind
      · have lower := parts.1 row later
        omega
      · exact ih later behind parts.2

/-- A row is found by its identifier exactly when it is in the table. -/
theorem find?_eq_some_iff {table : Table} {id : Int} {row : Row} :
    table.find? id = some row ↔ row ∈ table.rows ∧ row.id = id := by
  constructor
  · intro found
    exact ⟨List.mem_of_find?_eq_some found, by simpa using List.find?_some found⟩
  · rintro ⟨member, rfl⟩
    unfold find?
    cases found : table.rows.find? fun other => other.id == row.id with
    | none =>
      have absent := List.find?_eq_none.mp found row member
      simp at absent
    | some other =>
      have same : other.id = row.id := by simpa using List.find?_some found
      rw [row_unique (List.mem_of_find?_eq_some found) member same]

/-- Nothing is found exactly when no row has the identifier. -/
theorem find?_eq_none_iff {table : Table} {id : Int} :
    table.find? id = none ↔ ∀ row ∈ table.rows, row.id ≠ id := by
  simp [find?, List.find?_eq_none]

/-- The largest identifier in use or ever handed out. -/
def highest (table : Table) : Int := table.rows.foldl (fun top row => max top row.id) table.counter

/-- The largest identifier of a list, or a start if that is larger, bounds both. -/
theorem le_foldl_max (rows : List Row) (start : Int) :
    start ≤ rows.foldl (fun top row => max top row.id) start ∧
      ∀ row ∈ rows, row.id ≤ rows.foldl (fun top row => max top row.id) start := by
  induction rows generalizing start with
  | nil => simp
  | cons first rest ih =>
    have later := ih (max start first.id)
    simp only [List.foldl_cons, List.mem_cons]
    refine ⟨by omega, fun row member => ?_⟩
    rcases member with rfl | member
    · omega
    · exact later.2 row member

/-- No identifier in use is above the largest. -/
theorem id_le_highest {table : Table} {row : Row} (member : row ∈ table.rows) :
    row.id ≤ table.highest :=
  (le_foldl_max table.rows table.counter).2 row member

/-- The identifier after the largest is new. -/
theorem id_ne_next {table : Table} {row : Row} (member : row ∈ table.rows) :
    row.id ≠ table.highest + 1 := by
  have bound := id_le_highest member
  omega

/-! ## Order -/

/-- Puts a row in its place by its identifier. -/
def placeRow (row : Row) : List Row → List Row
  | [] => [row]
  | other :: rest =>
    if row.id < other.id then row :: other :: rest else other :: placeRow row rest

/-- Placing a row adds that row and loses none. -/
theorem mem_placeRow {row other : Row} {rows : List Row} :
    other ∈ placeRow row rows ↔ other = row ∨ other ∈ rows := by
  induction rows with
  | nil => simp [placeRow]
  | cons first rest ih =>
    by_cases before : row.id < first.id
    · simp [placeRow, before]
    · simp only [placeRow, before, if_false, List.mem_cons, ih]
      grind

/-- Placing a row with a new identifier keeps the order. -/
theorem ascending_placeRow {row : Row} {rows : List Row} (sorted : Ascending rows)
    (fresh : ∀ other ∈ rows, other.id ≠ row.id) : Ascending (placeRow row rows) := by
  induction rows with
  | nil => simp [placeRow, Ascending]
  | cons first rest ih =>
    have parts := List.pairwise_cons.mp sorted
    by_cases before : row.id < first.id
    · simp only [placeRow, before, if_true]
      refine List.pairwise_cons.mpr ⟨fun other member => ?_, sorted⟩
      rcases List.mem_cons.mp member with rfl | later
      · exact before
      · exact Int.lt_trans before (parts.1 other later)
    · simp only [placeRow, before, if_false]
      refine List.pairwise_cons.mpr ⟨fun other member => ?_, ih parts.2 fun other member =>
        fresh other (List.mem_cons_of_mem _ member)⟩
      rcases mem_placeRow.mp member with rfl | later
      · have distinct := fresh first List.mem_cons_self
        omega
      · exact parts.1 other later

/-- Changing cells keeps the order. -/
theorem ascending_map {rows : List Row} (sorted : Ascending rows) (change : Row → Row)
    (keeps : ∀ row, (change row).id = row.id) : Ascending (rows.map change) := by
  refine List.pairwise_map.mpr (sorted.imp fun lower => ?_)
  simpa only [keeps] using lower

/-- Leaving rows out keeps the order. -/
theorem ascending_filter {rows : List Row} (sorted : Ascending rows) (keep : Row → Bool) :
    Ascending (rows.filter keep) :=
  List.Pairwise.filter keep sorted

/-! ## Changing rows -/

/-- Puts a row in its place and remembers its identifier. The identifier must be new. -/
def place (table : Table) (row : Row) (fresh : ∀ other ∈ table.rows, other.id ≠ row.id) :
    Table where
  rows := placeRow row table.rows
  counter := max table.counter row.id
  trigger := table.trigger
  ascending := ascending_placeRow table.ascending fresh

/-- The rows after one was put in its place are that row and the rows before. -/
theorem mem_rows_place {table : Table} {row other : Row}
    {fresh : ∀ other ∈ table.rows, other.id ≠ row.id} :
    other ∈ (table.place row fresh).rows ↔ other = row ∨ other ∈ table.rows :=
  mem_placeRow

def uses (table : Table) (id : Int) : Bool := table.rows.any fun row => row.id == id

/-- An identifier that is not in use is new to every row. -/
theorem fresh_of_not_uses {table : Table} {row : Row} (unused : ¬ table.uses row.id = true) :
    ∀ other ∈ table.rows, other.id ≠ row.id := by
  intro other member same
  exact unused (List.any_eq_true.mpr ⟨other, member, by simp [same]⟩)

/-- Puts a row in its place, unless its identifier is in use. -/
def insert? (table : Table) (row : Row) : Option Table :=
  if unused : table.uses row.id = true then none
  else some (table.place row (fresh_of_not_uses unused))

/-- Adds a row under the next identifier, while there is one. -/
def append? (table : Table) (cells : Cells) : Option (Table × Row) :=
  if table.highest < storedHigh then
    some (table.place ⟨table.highest + 1, cells⟩ fun _ member => id_ne_next member,
      ⟨table.highest + 1, cells⟩)
  else none

/-- The stamp of a changed row: the trigger replaces one that did not change. -/
def stamped (table : Table) (clock : String) (before after : Cells) : Cells :=
  if table.trigger && after.updated == before.updated then { after with updated := clock }
  else after

/-- Changes the cells of the row of an identifier. -/
def amend (table : Table) (clock : String) (id : Int) (change : Cells → Cells) : Table where
  rows := table.rows.map fun row =>
    if row.id = id then ⟨row.id, table.stamped clock row.cells (change row.cells)⟩ else row
  counter := table.counter
  trigger := table.trigger
  ascending := ascending_map table.ascending _ fun row => by split <;> rfl

def erase (table : Table) (id : Int) : Table where
  rows := table.rows.filter fun row => row.id != id
  counter := table.counter
  trigger := table.trigger
  ascending := ascending_filter table.ascending _

/-- The rows left are those of other identifiers. -/
theorem mem_rows_erase {table : Table} {id : Int} {row : Row} :
    row ∈ (table.erase id).rows ↔ row ∈ table.rows ∧ row.id ≠ id := by
  simp [erase]

end Table

end EarningsLedger.Storage
