import EarningsLedger.Proofs.FreshIdentifiers

/-!
# Identifiers fit their cells

Whatever is done to a ledger, and behind its back, the identifiers of its rows are numbers that
a cell holds: the next identifier is not handed out behind the last of them, and the driver takes
no other number from a statement.  `fitting_after` says so of the table behind any run of calls
and plain statements.
-/

namespace EarningsLedger

open Calendar Storage Writing

namespace Storage.Table

/-- A table whose identifiers are numbers of cells.  The counter is not far below them, so that
the next identifier is one as well. -/
structure Fitting (table : Table) : Prop where
  counter : storedLow ≤ table.counter
  ids : ∀ row ∈ table.rows, storedLow ≤ row.id ∧ row.id ≤ storedHigh

variable {before after : Table}

theorem fitting_empty (trigger : Bool) : (empty trigger).Fitting :=
  ⟨(by decide : storedLow ≤ 0), List.forall_mem_nil _⟩

namespace Fitting

theorem place (fitting : before.Fitting) {row : Row} (low : storedLow ≤ row.id)
    (high : row.id ≤ storedHigh) (fresh : ∀ other ∈ before.rows, other.id ≠ row.id) :
    (before.place row fresh).Fitting := by
  refine ⟨Int.le_trans fitting.counter (Int.le_max_left _ _), fun other member => ?_⟩
  rcases mem_rows_place.mp member with rfl | old
  · exact ⟨low, high⟩
  · exact fitting.ids other old

theorem amend (fitting : before.Fitting) (clock : String) (id : Int) (change : Cells → Cells) :
    (before.amend clock id change).Fitting := by
  refine ⟨fitting.counter, fun row member => ?_⟩
  obtain ⟨old, there, rfl⟩ := List.mem_map.mp member
  split <;> exact fitting.ids old there

theorem erase (fitting : before.Fitting) (id : Int) : (before.erase id).Fitting :=
  ⟨fitting.counter, fun row member => fitting.ids row (mem_rows_erase.mp member).1⟩

/-- The next identifier is behind the counter. -/
theorem low_next (fitting : before.Fitting) : storedLow ≤ before.highest + 1 := by
  have counter := fitting.counter
  have above := counter_le_highest before
  omega

theorem append? (fitting : before.Fitting) {cells : Cells} {row : Row}
    (added : before.append? cells = some (after, row)) : after.Fitting := by
  have low := fitting.low_next
  unfold Table.append? at added
  split at added
  · next room =>
    cases added
    exact fitting.place low (Int.add_one_le_of_lt room) _
  · cases added

theorem insert? (fitting : before.Fitting) {row : Row} (low : storedLow ≤ row.id)
    (high : row.id ≤ storedHigh) (added : before.insert? row = some after) : after.Fitting := by
  unfold Table.insert? at added
  split at added
  · cases added
  · cases added
    exact fitting.place low high _

theorem stores (fitting : before.Fitting) {env : Environment} {drafts : List Draft}
    (stores : Stores env drafts before after) : after.Fitting := by
  have low := fitting.low_next
  have counter := Int.le_trans fitting.counter (counter_le_highest before)
  have count : (cellsAt env.now drafts).length = drafts.length := length_cellsAt _ _
  rw [stores.grown]
  rcases stores.room with rfl | room
  · exact (extended_nil before).symm ▸ fitting
  · refine ⟨?_, fun row member => ?_⟩
    · have own := fitting.counter
      unfold extended
      dsimp only
      split <;> omega
    · rcases List.mem_append.mp member with old | new
      · exact fitting.ids row old
      · have bounds := id_of_mem_numbered new
        omega

/-- An answered call leaves identifiers that fit. -/
theorem effect (fitting : before.Fitting) {env : Environment} {call : Call} {answer : Answer}
    (effect : Call.Effect env before call answer after) : after.Fitting := by
  cases effect with
  | read reads => exact fitting
  | created admitted stores => exact fitting.stores stores
  | createdNone admitted => exact fitting
  | createdMany admitted some stores => exact fitting.stores stores
  | amended asks key amends =>
    cases amends
    exact fitting.amend ..

end Fitting

end Storage.Table

/-! ## Plain statements -/

namespace Storage.Statement

variable {before : Table}

/-- The number in a cell is one that the driver takes. -/
theorem numberCell_fits {column : String} {value : Value} {n : Int}
    (taken : bindable value = true) (number : numberCell column value = .ok n) :
    storedLow ≤ n ∧ n ≤ storedHigh := by
  cases value with
  | int m =>
    obtain rfl : m = n := Except.ok.inj number
    exact isStorable_iff.mp taken
  | bool b =>
    obtain rfl := Except.ok.inj number
    cases b <;> decide
  | _ => cases number

/-- What stands under a name is taken by the driver if all values are. -/
theorem bindable_of_get? {values : Fields} (all : (values.all fun field => bindable field.2) = true)
    {column : String} {value : Value} (named : values.get? column = some value) :
    bindable value = true := by
  obtain ⟨field, found, rfl⟩ := Option.map_eq_some_iff.mp named
  exact List.all_eq_true.mp all field (List.mem_of_find?_eq_some found)

theorem fitting_insertRow (fitting : before.Fitting) (clock : String) {values : Fields}
    (all : (values.all fun field => bindable field.2) = true) :
    (insertRow clock values before).1.Fitting := by
  unfold insertRow
  dsimp only
  split
  · next after placed =>
    split at placed
    · split at placed
      · cases placed
      · obtain ⟨cells, -, placed⟩ := bind_eq_ok_iff.mp placed
        split at placed
        · next added =>
          cases placed
          exact fitting.append? added
        · cases placed
    · next given =>
      obtain ⟨id, number, placed⟩ := bind_eq_ok_iff.mp placed
      obtain ⟨cells, -, placed⟩ := bind_eq_ok_iff.mp placed
      split at placed
      · next added =>
        cases placed
        have taken : bindable ((values.get? "id").getD (defaultOf clock "id")) = true := by
          cases named : values.get? "id" with
          | none => rfl
          | some value => exact bindable_of_get? all named
        obtain ⟨low, high⟩ := numberCell_fits taken number
        exact fitting.insert? low high added
      · cases placed
  · exact fitting

theorem fitting_moveRow (fitting : before.Fitting) {row : Row} {id : Int} {after : Table}
    (low : storedLow ≤ id) (high : id ≤ storedHigh) (moved : moveRow before row id = .ok after) :
    after.Fitting := by
  unfold moveRow at moved
  split at moved
  · cases moved
    exact fitting
  · split at moved
    · cases moved
    · split at moved
      · next placed added =>
        cases moved
        have placed := (fitting.erase row.id).insert? low high added
        exact ⟨fitting.counter, placed.ids⟩
      · cases moved

theorem fitting_updateRow (fitting : before.Fitting) (clock : String) {row : Row}
    (member : row ∈ before.rows) {values : Fields}
    (all : (values.all fun field => bindable field.2) = true) :
    (updateRow clock row values before).1.Fitting := by
  unfold updateRow
  dsimp only
  split
  · next after changed =>
    obtain ⟨id, number, changed⟩ := bind_eq_ok_iff.mp changed
    obtain ⟨cells, -, moved⟩ := bind_eq_ok_iff.mp changed
    have taken : bindable ((values.get? "id").getD (columnValue row "id")) = true := by
      cases named : values.get? "id" with
      | none => exact isStorable_iff.mpr (fitting.ids row member)
      | some value => exact bindable_of_get? all named
    obtain ⟨low, high⟩ := numberCell_fits taken number
    exact fitting_moveRow (fitting.amend ..) low high moved
  · exact fitting

theorem mem_of_rowOf {id : Value} {row : Row} (found : rowOf before id = some row) :
    row ∈ before.rows := by
  cases id with
  | int n => exact (Table.find?_eq_some_iff.mp found).1
  | bool b => exact (Table.find?_eq_some_iff.mp found).1
  | _ => cases found

/-- A statement leaves identifiers that fit, before its session ends. -/
theorem fitting_runOn (fitting : before.Fitting) (now : Instant) (statement : Statement) :
    (statement.runOn now before).1.Fitting := by
  cases statement with
  | insert values =>
    unfold runOn
    dsimp only
    split
    · exact fitting
    · split
      · next all => exact fitting_insertRow fitting _ all
      · exact fitting
  | update id values =>
    unfold runOn
    dsimp only
    split
    · exact fitting
    · split
      · next all =>
        split
        · next row found =>
          exact fitting_updateRow fitting _ (mem_of_rowOf found) (Bool.and_eq_true_iff.mp all).2
        · exact fitting
      · exact fitting
  | delete id =>
    unfold runOn
    dsimp only
    split
    · split
      · exact fitting.erase _
      · exact fitting
    · exact fitting

end Storage.Statement

/-! ## Runs of acts -/

/-- One act leaves identifiers that fit. -/
theorem Act.fitting (act : Act) {before : Table} (fitting : before.Fitting) :
    ∃ after, act.after (some before) = some after ∧ after.Fitting := by
  cases act with
  | call turn =>
    rcases turn.reply_cases before with ⟨_, _, kept⟩ | ⟨_, after, _, stored, effect⟩
    · exact ⟨before, kept, fitting⟩
    · exact ⟨after, stored, fitting.effect effect⟩
  | plain now statement =>
    obtain ⟨after, left, ends⟩ := statement.run_cases now before
    refine ⟨after, left, ?_⟩
    rcases ends with rfl | rfl
    · exact fitting
    · exact Statement.fitting_runOn fitting now statement

/-- **Behind any run the identifiers fit their cells.** -/
theorem fitting_after (acts : List Act) {before : Table} (fitting : before.Fitting) :
    ∃ after, storeLeft (some before) acts = some after ∧ after.Fitting := by
  induction acts generalizing before with
  | nil => exact ⟨before, rfl, fitting⟩
  | cons act rest ih =>
    obtain ⟨middle, left, still⟩ := act.fitting fitting
    rw [storeLeft, left]
    exact ih still

end EarningsLedger
