import EarningsLedger.Storage.Session

/-!
# What writing does to a table

A table is written in two ways: rows go in under the identifiers behind the largest
one, and the cells of one row are changed.  This module gives both a closed form.
`Table.extended` is the table with rows for a list of cells behind the ones it has,
and `appendRows_eq_ok_iff` says that inserting one row after another leads exactly
there, or fails for want of identifiers.  `Table.find?_extended` and
`Table.find?_amend` say what a later look-up sees.
-/

namespace EarningsLedger.Storage

/-! ## Numbered rows -/

/-- Rows of the given cells under the identifiers from `next` on. -/
def numbered : Int → List Cells → List Row
  | _, [] => []
  | next, cells :: rest => ⟨next, cells⟩ :: numbered (next + 1) rest

theorem numbered_append (next : Int) (cells more : List Cells) :
    numbered next (cells ++ more) = numbered next cells ++ numbered (next + cells.length) more := by
  induction cells generalizing next with
  | nil => simp [numbered]
  | cons first rest ih =>
    have shift : next + 1 + (rest.length : Int) = next + ((rest.length : Int) + 1) := by omega
    simp [numbered, ih, shift]

theorem length_numbered (next : Int) (cells : List Cells) :
    (numbered next cells).length = cells.length := by
  induction cells generalizing next with
  | nil => rfl
  | cons first rest ih => simp [numbered, ih]

/-- The identifiers of numbered rows run from the first one over their number. -/
theorem id_of_mem_numbered {next : Int} {cells : List Cells} {row : Row}
    (member : row ∈ numbered next cells) : next ≤ row.id ∧ row.id < next + cells.length := by
  induction cells generalizing next with
  | nil => cases member
  | cons first rest ih =>
    rcases List.mem_cons.mp member with rfl | later
    · simp only [List.length_cons]
      omega
    · have bounds := ih later
      simp only [List.length_cons]
      omega

theorem cells_of_mem_numbered {next : Int} {cells : List Cells} {row : Row}
    (member : row ∈ numbered next cells) : row.cells ∈ cells := by
  induction cells generalizing next with
  | nil => cases member
  | cons first rest ih =>
    rcases List.mem_cons.mp member with rfl | later
    · exact List.mem_cons_self
    · exact List.mem_cons_of_mem _ (ih later)

theorem ascending_numbered (next : Int) (cells : List Cells) :
    Ascending (numbered next cells) := by
  induction cells generalizing next with
  | nil => exact .nil
  | cons first rest ih =>
    refine List.pairwise_cons.mpr ⟨fun row member => ?_, ih (next + 1)⟩
    have bounds := id_of_mem_numbered member
    dsimp only
    omega

namespace Table

/-- Tables with the same rows, counter and trigger are the same. -/
theorem eq_of_parts {a b : Table} (rows : a.rows = b.rows) (counter : a.counter = b.counter)
    (trigger : a.trigger = b.trigger) : a = b := by
  cases a
  cases b
  cases rows
  cases counter
  cases trigger
  rfl

/-! ## Rows behind the others -/

theorem counter_le_highest (table : Table) : table.counter ≤ table.highest :=
  (le_foldl_max table.rows table.counter).1

/-- The table with rows of the given cells behind its own, under the identifiers that
follow its largest. -/
def extended (table : Table) (cells : List Cells) : Table where
  rows := table.rows ++ numbered (table.highest + 1) cells
  counter := if cells = [] then table.counter else table.highest + cells.length
  trigger := table.trigger
  ascending := by
    refine List.pairwise_append.mpr ⟨table.ascending, ascending_numbered _ _, ?_⟩
    intro row member other later
    have below := id_le_highest member
    have above := id_of_mem_numbered later
    omega

theorem extended_nil (table : Table) : table.extended [] = table :=
  eq_of_parts (List.append_nil _) rfl rfl

theorem counter_extended (table : Table) {cells : List Cells} (some : cells ≠ []) :
    (table.extended cells).counter = table.highest + cells.length :=
  if_neg some

/-- The maximum over rows does not exceed a bound of the start and of every row. -/
theorem foldl_max_le {rows : List Row} {start bound : Int} (low : start ≤ bound)
    (below : ∀ row ∈ rows, row.id ≤ bound) :
    rows.foldl (fun top row => max top row.id) start ≤ bound := by
  induction rows generalizing start with
  | nil => exact low
  | cons first rest ih =>
    have here := below first List.mem_cons_self
    exact ih (Int.max_le.mpr ⟨low, here⟩) fun row member => below row (List.mem_cons_of_mem _ member)

/-- Every row that goes in raises the largest identifier by one. -/
theorem highest_extended (table : Table) (cells : List Cells) :
    (table.extended cells).highest = table.highest + cells.length := by
  by_cases none : cells = []
  · subst none
    rw [extended_nil]
    simp
  · have counter := counter_extended table none
    apply Int.le_antisymm
    · refine foldl_max_le (Int.le_of_eq counter) fun row member => ?_
      rcases List.mem_append.mp member with old | new
      · have below := id_le_highest old
        omega
      · have bounds := id_of_mem_numbered new
        omega
    · rw [← counter]
      exact counter_le_highest _

theorem extended_extended (table : Table) (cells more : List Cells) :
    (table.extended cells).extended more = table.extended (cells ++ more) := by
  by_cases none : more = []
  · subst none
    rw [extended_nil, List.append_nil]
  · apply eq_of_parts
    · have next : (table.extended cells).highest + 1 = table.highest + 1 + cells.length := by
        rw [highest_extended]
        omega
      show table.rows ++ _ ++ numbered ((table.extended cells).highest + 1) more = _
      rw [next, List.append_assoc, ← numbered_append]
      rfl
    · have whole : cells ++ more ≠ [] := by simp [none]
      rw [counter_extended _ none, counter_extended table whole, highest_extended, List.length_append]
      omega
    · rfl

/-- A row whose identifier is above all others goes to the end. -/
theorem placeRow_above {row : Row} {rows : List Row} (above : ∀ other ∈ rows, other.id < row.id) :
    placeRow row rows = rows ++ [row] := by
  induction rows with
  | nil => rfl
  | cons first rest ih =>
    have behind : ¬ row.id < first.id := by
      have lower := above first List.mem_cons_self
      omega
    simp [placeRow, behind, ih fun other member => above other (List.mem_cons_of_mem _ member)]

/-- Adding a row extends the table by it, while there is an identifier left. -/
theorem append?_eq (table : Table) (cells : Cells) :
    table.append? cells =
      if table.highest < storedHigh then
        some (table.extended [cells], ⟨table.highest + 1, cells⟩)
      else none := by
  unfold append?
  split
  · congr 2
    apply eq_of_parts
    · refine placeRow_above fun other member => ?_
      have below := id_le_highest member
      dsimp only
      omega
    · have low := counter_le_highest table
      simp only [place, extended, if_neg (List.cons_ne_nil _ _), List.length_singleton]
      omega
    · rfl
  · rfl

end Table

/-- Inserting rows succeeds exactly when there are identifiers for all of them, and
extends the table by them. -/
theorem appendRows_eq_ok_iff {cells : List Cells} {before after : Table} {rows : List Row} :
    appendRows cells before = (after, .ok rows) ↔
      (cells = [] ∨ before.highest + cells.length ≤ storedHigh) ∧
        after = before.extended cells ∧ rows = numbered (before.highest + 1) cells := by
  induction cells generalizing before rows with
  | nil => simp [appendRows, Table.extended_nil, numbered, eq_comm]
  | cons first rest ih =>
    have joined : (before.extended [first]).extended rest = before.extended (first :: rest) :=
      Table.extended_extended before [first] rest
    have top : (before.extended [first]).highest = before.highest + 1 :=
      Table.highest_extended before [first]
    by_cases room : before.highest < storedHigh
    · simp only [appendRows, appendRow, Table.append?_eq, if_pos room]
      constructor
      · intro done
        split at done
        · next last more inner =>
          obtain ⟨rfl, same⟩ := Prod.mk.inj done
          obtain ⟨fits, left, numbers⟩ := ih.mp inner
          refine ⟨.inr ?_, by rw [left, joined], ?_⟩
          · simp only [List.length_cons]
            rcases fits with rfl | fits
            · simp only [List.length_nil]
              omega
            · omega
          · rw [← Except.ok.inj same, numbers, top]
            rfl
        · simp at done
      · intro whole
        obtain ⟨fits, rfl, rfl⟩ := whole
        have inner : appendRows rest (before.extended [first]) =
            (before.extended (first :: rest), .ok (numbered (before.highest + 1 + 1) rest)) := by
          refine ih.mpr ⟨.inr ?_, joined.symm, by rw [top]⟩
          simp only [reduceCtorEq, List.length_cons, false_or] at fits
          omega
        rw [inner]
        rfl
    · simp only [appendRows, appendRow, Table.append?_eq, if_neg room, Prod.mk.injEq,
        reduceCtorEq, and_false, false_or, List.length_cons, false_iff]
      omega

namespace Table

/-! ## Looking up afterwards -/

/-- A look-up behind an insertion finds the rows there were, and the new ones. -/
theorem find?_extended (table : Table) (cells : List Cells) (id : Int) :
    (table.extended cells).find? id =
      (table.find? id).or ((numbered (table.highest + 1) cells).find? fun row => row.id == id) :=
  List.find?_append

/-- No new row has an identifier that was in use. -/
theorem find?_numbered_of_found {table : Table} {id : Int} {row : Row}
    (found : table.find? id = some row) (cells : List Cells) :
    ((numbered (table.highest + 1) cells).find? fun row => row.id == id) = none := by
  obtain ⟨member, rfl⟩ := find?_eq_some_iff.mp found
  have below := id_le_highest member
  refine List.find?_eq_none.mpr fun other drawn => ?_
  have behind := id_of_mem_numbered drawn
  simp only [beq_iff_eq]
  omega

/-- A look-up behind a change finds the same rows, the changed one with its new cells. -/
theorem find?_amend (table : Table) (clock : String) (id other : Int) (change : Cells → Cells) :
    (table.amend clock id change).find? other =
      (table.find? other).map fun row =>
        if row.id = id then ⟨row.id, table.stamped clock row.cells (change row.cells)⟩ else row := by
  have keeps : (fun row : Row => row.id == other) ∘ (fun row : Row => if row.id = id then
      (⟨row.id, table.stamped clock row.cells (change row.cells)⟩ : Row) else row) =
        fun row => row.id == other := by
    funext row
    dsimp only [Function.comp]
    split <;> rfl
  simp only [find?, amend, List.find?_map, keeps]

end Table

end EarningsLedger.Storage
