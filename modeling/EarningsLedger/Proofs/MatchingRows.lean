import EarningsLedger.Proofs.OwnerPages
import Mathlib.Data.List.Sort

/-!
# The rows that a filter is about

A filter picks rows by the numbers of their owner, and a page or a count may look behind
the last identifier seen as well.  `Filter.Matches` says which rows those are without the
statement that picks them, and `Table.Lists` that a list holds such rows of a table, all of
them, each once and in the order of their identifiers.

A filter that is handed over ready-made reaches the store as it is, but for a page that is
longer than the maximum in force.
-/

namespace EarningsLedger

open Check Storage

/-- The rows of a table of which something holds, in the order of their identifiers. -/
structure Storage.Table.Lists (table : Table) (P : Row → Prop) (rows : List Row) : Prop where
  ascending : Ascending rows
  mem : ∀ row, row ∈ rows ↔ row ∈ table.rows ∧ P row

/-- There is one such list. -/
theorem Storage.Table.Lists.unique {table : Table} {P : Row → Prop} {rows others : List Row}
    (lists : table.Lists P rows) (other : table.Lists P others) : rows = others := by
  have irrefl : Std.Irrefl fun a b : Row => a.id < b.id := ⟨fun row => Int.lt_irrefl row.id⟩
  have antisymm : Std.Antisymm fun a b : Row => a.id < b.id :=
    ⟨fun a b lower higher => absurd (Int.lt_trans lower higher) (Int.lt_irrefl a.id)⟩
  exact lists.ascending.eq_of_mem_iff other.ascending fun row =>
    (lists.mem row).trans (other.mem row).symm

namespace Filter

/-- The owner's numbers that a filter asks for. -/
def wanted (f : Filter) : Wanted := ⟨f.miner, f.pool, f.challenge⟩

/-- A row that a filter asks for: one of the owner, behind the last identifier seen. -/
def Matches (f : Filter) (row : Row) : Prop :=
  f.wanted.Owns row ∧ ∀ id, f.after = some id → (id : Int) < row.id

variable (f : Filter) (table : Table)

/-- The statement of a page picks the rows that its filter asks for. -/
theorem lists_select : table.Lists f.Matches (table.select (Reading.selectionOf f true)) := by
  have same : table.select (Reading.selectionOf f true) =
      f.wanted.behind table (f.after.map Int.ofNat) := by
    unfold Wanted.behind Reading.selectionOf Wanted.filter
    cases f.after <;> rfl
  have positive : ∀ id, f.after.map Int.ofNat = some id → 0 ≤ id := by
    intro id seen
    obtain ⟨n, -, rfl⟩ := Option.map_eq_some_iff.mp seen
    exact Int.natCast_nonneg n
  rw [same]
  refine ⟨f.wanted.ascending_behind table _, fun row => ?_⟩
  rw [Wanted.mem_behind positive]
  cases seen : f.after <;> simp [Matches, seen]

/-- The statement of a sum picks the rows of the owner. -/
theorem lists_select_owner :
    table.Lists f.wanted.Owns (table.select (Reading.selectionOf f false)) := by
  have positive : ∀ id : Int, none = some id → 0 ≤ id := by simp
  refine ⟨f.wanted.ascending_behind table none, fun row => ?_⟩
  show row ∈ f.wanted.behind table none ↔ _
  rw [Wanted.mem_behind positive]
  simp

/-- A request that hands over its filter ready-made goes on with it, its page no longer than
the maximum in force. -/
theorem outcome_ready {α : Type} (env : Environment) (operation : String)
    (next : Filter → Audited α) :
    (Call.filterFor env operation (some f) (.dict []) >>= next).outcome =
      (next (f.capped env.limits.maximum)).outcome :=
  Audited.outcome_bind_of_ok rfl

end Filter

end EarningsLedger
