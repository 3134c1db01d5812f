import EarningsLedger.Proofs.RowFrames

/-!
# Where the rows of a table come from

Between two looks at a ledger anything may be called, and rows may be deleted behind its
back.  Two things hold of whatever was done: no identifier is handed out a second time, so
what has gone stays gone, and a row that is still there has kept its identifier and its
owner.  `Table.Descends` says both of two tables, `Move.lineage` of one call or deletion,
and `lineage` of any sequence of them.
-/

namespace EarningsLedger

open Calendar Storage Writing

/-! ## Moves -/

/-- What may be done to a ledger: a call, or the deletion of a row by a plain statement. -/
inductive Move where
  | call (turn : Turn)
  | delete (now : Instant) (id : Value)

/-- The store that a move leaves behind. -/
def Move.after (move : Move) (store : Store) : Store :=
  match move with
  | call turn => (turn.reply store).store
  | delete now id => ((Statement.delete id).run now store).1

/-- The store that moves leave behind, one after the other. -/
def storeBehind (store : Store) (moves : List Move) : Store :=
  moves.foldl (fun before move => move.after before) store

/-! ## Tables that descend from others -/

namespace Storage.Table

/-- A sound table whose identifiers fit their cells. -/
structure Roomy (table : Table) : Prop where
  sound : table.Sound
  room : table.highest ≤ storedHigh

/-- A later table: the identifiers handed out since are above those of the earlier one,
so every other row is what became of one that was there. -/
structure Descends (before after : Table) : Prop where
  top : before.highest ≤ after.highest
  rows : ∀ row ∈ after.rows, row.id ≤ before.highest → ∃ old ∈ before.rows, old.Became row

theorem Descends.refl (table : Table) : table.Descends table :=
  ⟨Int.le_refl _, fun row member _ => ⟨row, member, .refl row⟩⟩

theorem Descends.trans {first second third : Table} (early : first.Descends second)
    (late : second.Descends third) : first.Descends third := by
  refine ⟨Int.le_trans early.top late.top, fun row member low => ?_⟩
  obtain ⟨middle, there, became⟩ := late.rows row member (Int.le_trans low early.top)
  have low : middle.id ≤ first.highest := by
    rw [← became.id]
    exact low
  obtain ⟨old, here, been⟩ := early.rows middle there low
  exact ⟨old, here, been.trans became⟩

/-! ## Deletions -/

section Erase

variable {table : Table}

theorem Sound.erase (sound : table.Sound) (id : Int) : (table.erase id).Sound where
  counter := sound.counter
  ids row member := sound.ids row (mem_rows_erase.mp member).1
  cells row member := sound.cells row (mem_rows_erase.mp member).1

/-- The counter remembers the identifiers of rows that are gone. -/
theorem Sound.highest_erase (sound : table.Sound) (id : Int) :
    (table.erase id).highest = table.highest := by
  rw [(sound.erase id).highest_eq, sound.highest_eq]
  rfl

theorem Roomy.erase (roomy : table.Roomy) (id : Int) :
    (table.erase id).Roomy ∧ table.Descends (table.erase id) := by
  have top := roomy.sound.highest_erase id
  refine ⟨⟨roomy.sound.erase id, top ▸ roomy.room⟩, Int.le_of_eq top.symm, ?_⟩
  exact fun row member _ => ⟨row, (mem_rows_erase.mp member).1, .refl row⟩

/-- A deletion leaves the table as it was, or without one row. -/
theorem delete_cases (now : Instant) (id : Value) (table : Table) :
    (Move.delete now id).after (some table) = some table ∨
      ∃ n, (Move.delete now id).after (some table) = some (table.erase n) := by
  cases fits : Statement.bindable id with
  | false =>
    left
    simp [Move.after, Statement.run, Statement.runOn, session, onTable, fits]
  | true =>
    cases found : Statement.rowOf table id with
    | none =>
      left
      simp [Move.after, Statement.run, Statement.runOn, session, onTable, fits, found]
    | some row =>
      right
      exact ⟨row.id, by
        simp [Move.after, Statement.run, Statement.runOn, session, onTable, fits, found]⟩

end Erase

/-! ## Calls -/

section Calls

variable {env : Environment} {before after : Table}

theorem Roomy.stores {drafts : List Draft} (roomy : before.Roomy)
    (stores : Stores env drafts before after) : after.Roomy ∧ before.Descends after := by
  have raised : after.highest = before.highest + (cellsAt env.now drafts).length := by
    rw [stores.grown, highest_extended]
  have count : (cellsAt env.now drafts).length = drafts.length := length_cellsAt _ _
  refine ⟨⟨roomy.sound.stores stores, ?_⟩, by omega, fun row member low => ?_⟩
  · have low := roomy.room
    rcases stores.room with rfl | room
    · have none : (cellsAt env.now []).length = 0 := rfl
      omega
    · omega
  · rw [stores.grown] at member
    rcases List.mem_append.mp member with old | new
    · exact ⟨row, old, .refl row⟩
    · have above := id_of_mem_numbered new
      omega

theorem Roomy.amends {id : Int} {compute : Int → Int} {made : Change} (roomy : before.Roomy)
    (amends : Amends env id compute before made after) :
    after.Roomy ∧ before.Descends after := by
  have counter : after.counter = before.counter := by
    cases amends
    rfl
  have sound := roomy.sound.amends amends
  have top : after.highest = before.highest := by
    rw [sound.highest_eq, roomy.sound.highest_eq, counter]
  obtain ⟨changed, created, updated, stamp, ⟨held, rfl⟩, -, -, -, rows, -⟩ :=
    roomy.sound.of_amends amends
  refine ⟨⟨sound, top ▸ roomy.room⟩, Int.le_of_eq top.symm, fun row member _ => ?_⟩
  rw [rows] at member
  obtain ⟨old, there, rfl⟩ := List.mem_map.mp member
  refine ⟨old, there, ?_⟩
  split
  · next same =>
    obtain rfl := row_unique there held same
    exact .restamped _ _ _
  · exact .refl old

/-- **What an answered call makes of a table descends from it.** -/
theorem Roomy.effect {call : Call} {answer : Answer} (roomy : before.Roomy)
    (effect : Call.Effect env before call answer after) :
    after.Roomy ∧ before.Descends after := by
  cases effect with
  | read reads => exact ⟨roomy, .refl before⟩
  | created admitted stores => exact roomy.stores stores
  | createdNone admitted => exact ⟨roomy, .refl before⟩
  | createdMany admitted some stores => exact roomy.stores stores
  | amended asks key amends => exact roomy.amends amends

end Calls

end Storage.Table

/-! ## Sequences of moves -/

/-- One move leaves a table that descends from the one before. -/
theorem Move.lineage (move : Move) {before : Table} (roomy : before.Roomy) :
    ∃ after, move.after (some before) = some after ∧ after.Roomy ∧ before.Descends after := by
  cases move with
  | call turn =>
    rcases turn.reply_cases before with ⟨_, _, kept⟩ | ⟨_, after, _, stored, effect⟩
    · exact ⟨before, kept, roomy, .refl before⟩
    · exact ⟨after, stored, roomy.effect effect⟩
  | delete now id =>
    rcases Table.delete_cases now id before with kept | ⟨n, erased⟩
    · exact ⟨before, kept, roomy, .refl before⟩
    · exact ⟨before.erase n, erased, roomy.erase n⟩

/-- **Moves leave a table that descends from the one before them.** -/
theorem lineage (moves : List Move) {before : Table} (roomy : before.Roomy) :
    ∃ after, storeBehind (some before) moves = some after ∧ after.Roomy ∧
      before.Descends after := by
  induction moves generalizing before with
  | nil => exact ⟨before, rfl, roomy, .refl before⟩
  | cons move rest ih =>
    obtain ⟨middle, stored, still, early⟩ := move.lineage roomy
    obtain ⟨after, left, last, late⟩ := ih still
    refine ⟨after, ?_, last, early.trans late⟩
    show storeBehind (move.after (some before)) rest = some after
    rw [stored]
    exact left

/-- Behind every run from a ledger without rows the identifiers fit their cells. -/
theorem roomy_after (trigger : Bool) (turns : List Turn) :
    ∃ after, storeAfter (freshStore trigger) turns = some after ∧ after.Roomy := by
  have low : (0 : Int) ≤ storedHigh := by decide
  have fresh : (Table.empty trigger).Roomy := ⟨.empty trigger, low⟩
  exact table_after (P := Table.Roomy) (fun roomy effect => (roomy.effect effect).1) fresh turns

end EarningsLedger
