import EarningsLedger.Proofs.SessionWrites
import EarningsLedger.Storage.Statement

/-!
# What a plain statement does to a table

A plain statement goes past the ledger and its checks, but not past the table: it puts one
row in its place under an identifier that is not in use, changes the cells of one row,
takes one row away, or leaves the table as it is.  `Statement.run_leaves` says so of every
statement that does not give a row another identifier.
-/

namespace EarningsLedger.Storage

open Calendar

namespace Statement

/-- Whether a statement lets every row keep its identifier. -/
def keepsIds : Statement → Bool
  | update _ values => !values.has "id"
  | _ => true

/-- What a plain statement makes of a table. -/
inductive Leaves (before : Table) : Table → Prop
  | kept : Leaves before before
  | placed (row : Row) (fresh : ∀ other ∈ before.rows, other.id ≠ row.id) :
    Leaves before (before.place row fresh)
  | amended (clock : String) (id : Int) (cells : Cells) :
    Leaves before (before.amend clock id fun _ => cells)
  | erased (id : Int) : Leaves before (before.erase id)

variable {before : Table}

/-! ## Insertions -/

theorem leaves_of_append? {cells : Cells} {after : Table} {row : Row}
    (added : before.append? cells = some (after, row)) : Leaves before after := by
  unfold Table.append? at added
  split at added
  · cases added
    exact .placed _ fun _ member => Table.id_ne_next member
  · cases added

theorem leaves_of_insert? {row : Row} {after : Table} (added : before.insert? row = some after) :
    Leaves before after := by
  unfold Table.insert? at added
  split at added
  · cases added
  · next unused =>
    cases added
    exact .placed row (Table.fresh_of_not_uses unused)

theorem insertRow_leaves (clock : String) (values : Fields) :
    Leaves before (insertRow clock values before).1 := by
  unfold insertRow
  dsimp only
  split
  · next after placed =>
    split at placed
    · split at placed
      · cases placed
      · obtain ⟨cells, -, placed⟩ := bind_eq_ok_iff.mp placed
        split at placed
        · next added =>
          cases placed
          exact leaves_of_append? added
        · cases placed
    · obtain ⟨id, -, placed⟩ := bind_eq_ok_iff.mp placed
      obtain ⟨cells, -, placed⟩ := bind_eq_ok_iff.mp placed
      split at placed
      · next added =>
        cases placed
        exact leaves_of_insert? added
      · cases placed
  · exact .kept

/-! ## Changes -/

/-- A row that keeps its identifier is not moved. -/
theorem moveRow_self (table : Table) (row : Row) : moveRow table row row.id = .ok table :=
  if_pos rfl

theorem updateRow_leaves (clock : String) (row : Row) {values : Fields}
    (same : values.get? "id" = none) : Leaves before (updateRow clock row values before).1 := by
  unfold updateRow
  dsimp only
  split
  · next after changed =>
    obtain ⟨id, named, changed⟩ := bind_eq_ok_iff.mp changed
    obtain ⟨cells, -, moved⟩ := bind_eq_ok_iff.mp changed
    rw [same] at named
    cases named
    rw [moveRow_self _ ⟨row.id, _⟩] at moved
    cases moved
    exact .amended ..
  · exact .kept

/-! ## Statements -/

/-- What a statement makes of a table, before its session ends. -/
theorem runOn_leaves {statement : Statement} (keeps : statement.keepsIds = true) (now : Instant) :
    Leaves before (statement.runOn now before).1 := by
  cases statement with
  | insert values =>
    unfold runOn
    dsimp only
    split
    · exact .kept
    · split
      · exact insertRow_leaves ..
      · exact .kept
  | update id values =>
    have absent : values.get? "id" = none := by
      simpa [keepsIds, Fields.has, Fields.get?] using keeps
    unfold runOn
    dsimp only
    split
    · exact .kept
    · split
      · split
        · exact updateRow_leaves _ _ absent
        · exact .kept
      · exact .kept
  | delete id =>
    unfold runOn
    dsimp only
    split
    · split
      · exact .erased _
      · exact .kept
    · exact .kept

/-- A session leaves what a statement makes of a table, or the table as it was. -/
theorem run_cases (statement : Statement) (now : Instant) (before : Table) :
    ∃ after, (statement.run now (some before)).1 = some after ∧
      (after = before ∨ after = (statement.runOn now before).1) := by
  unfold run
  cases ended : session (onTable (statement.runOn now)) (some before) with
  | mk left outcome =>
    cases outcome with
    | ok touched =>
      obtain ⟨after, rfl, done⟩ := Writing.ofTable_eq_ok_iff.mp (Writing.session_eq_ok_iff.mp ended)
      exact ⟨after, rfl, .inr (congrArg Prod.fst done).symm⟩
    | error fault => exact ⟨before, Writing.kept_of_session ended, .inl rfl⟩

/-- **What a plain statement leaves**: a table, and that in one of the ways that `Leaves`
lists. -/
theorem run_leaves {statement : Statement} (keeps : statement.keepsIds = true) (now : Instant)
    (before : Table) :
    ∃ after, (statement.run now (some before)).1 = some after ∧ Leaves before after := by
  obtain ⟨after, left, rfl | rfl⟩ := statement.run_cases now before
  · exact ⟨after, left, .kept⟩
  · exact ⟨_, left, runOn_leaves keeps now⟩

end Statement

end EarningsLedger.Storage
