import EarningsLedger.Proofs.Histories
import EarningsLedger.Proofs.StoredStamps

/-!
# Sound tables

What the ledger promises about its rows: identifiers are positive and not above the
counter, owners are numbered by keys, amounts are not negative and fit their cells, and
no row was changed before it was created.  `Table.Sound` says so of a table; it holds of
a table without rows, rows for admitted drafts keep it, and so does a change of an
amount, so it holds behind every run.

`Table.Sound.of_amends` gives the rows behind a change a closed form, from which later
modules read off what they need of it.

The bound of the amounts is the smaller of two: an amount may be twice as large as a
cell can hold, and it is the session that refuses the difference.
-/

namespace EarningsLedger

open Calendar Storage Writing

/-! ## Sound rows -/

/-- What holds of the cells of every row that the ledger wrote. -/
structure Storage.Cells.Sound (cells : Cells) : Prop where
  miner : isKey cells.miner = true
  pool : isKey cells.pool = true
  challenge : isKey cells.challenge = true
  amount : 0 ≤ cells.amount ∧ cells.amount ≤ storedHigh
  stamps : ∃ created updated : Instant, created ≤ updated ∧
    cells.created = created.storedText ∧ cells.updated = updated.storedText

/-- What holds of every table that the ledger wrote. -/
structure Storage.Table.Sound (table : Table) : Prop where
  counter : 0 ≤ table.counter
  ids : ∀ row ∈ table.rows, 0 < row.id ∧ row.id ≤ table.counter
  cells : ∀ row ∈ table.rows, row.cells.Sound

/-- Stored stamps are read back, so a row with stored stamps makes an earning. -/
theorem Earning.ofRow_eq_ok {row : Row} {created updated : Instant}
    (first : row.cells.created = created.storedText)
    (last : row.cells.updated = updated.storedText) :
    Earning.ofRow row = .ok ⟨row.id, row.cells.miner, row.cells.pool, row.cells.challenge,
      row.cells.amount, .plain created, .plain updated⟩ := by
  unfold Earning.ofRow Earning.readStamp
  rw [first, last, Moment.readStamp_storedText, Moment.readStamp_storedText]
  rfl

/-- A row of a sound table makes an earning with its numbers, which was not changed
before it was created. -/
theorem Storage.Table.Sound.ofRow {table : Table} (sound : table.Sound) {row : Row}
    (member : row ∈ table.rows) :
    ∃ created updated : Instant, created ≤ updated ∧
      Earning.ofRow row = .ok ⟨row.id, row.cells.miner, row.cells.pool, row.cells.challenge,
        row.cells.amount, .plain created, .plain updated⟩ := by
  obtain ⟨created, updated, ordered, first, last⟩ := (sound.cells row member).stamps
  exact ⟨created, updated, ordered, Earning.ofRow_eq_ok first last⟩

/-- A draft whose amount fits makes sound cells. -/
theorem Storage.Cells.Sound.of_draft {draft : Draft} (fits : draft.amount.val ≤ storedHigh)
    (now : Instant) : (Earning.cellsOf draft now).Sound where
  miner := draft.miner.inRange
  pool := draft.pool.inRange
  challenge := draft.challenge.inRange
  amount := ⟨draft.amount.bounds.1, fits⟩
  stamps := ⟨now, now, Nat.le_refl _, rfl, rfl⟩

/-- A row with another amount, and the stamp of the change that gave it. -/
def Storage.Row.restamped (row : Row) (amount : Int) (stamp : Instant) : Row :=
  ⟨row.id, { row.cells with amount := amount, updated := stamp.storedText }⟩

/-! ## What keeps tables sound -/

namespace Storage.Table

variable {env : Environment} {before after : Table}

theorem Sound.empty (trigger : Bool) : (Table.empty trigger).Sound where
  counter := Int.le_refl 0
  ids := fun _ member => nomatch member
  cells := fun _ member => nomatch member

/-- The counter of a sound table is its largest identifier. -/
theorem Sound.highest_eq (sound : before.Sound) : before.highest = before.counter :=
  Int.le_antisymm (foldl_max_le (Int.le_refl _) fun row member => (sound.ids row member).2)
    (counter_le_highest before)

/-- Rows for drafts keep a table sound. -/
theorem Sound.stores {drafts : List Draft} (sound : before.Sound)
    (stores : Stores env drafts before after) : after.Sound := by
  have top := sound.highest_eq
  have low := sound.counter
  have raised : after.highest = before.counter + (cellsAt env.now drafts).length := by
    rw [stores.grown, highest_extended, top]
  have counted : after.counter = after.highest := by
    rw [stores.grown, highest_extended]
    by_cases none : cellsAt env.now drafts = []
    · simp [none, extended_nil, top]
    · rw [counter_extended before none]
  have rows : ∀ row ∈ after.rows, row ∈ before.rows ∨
      row ∈ numbered (before.highest + 1) (cellsAt env.now drafts) := by
    intro row member
    rw [stores.grown] at member
    exact List.mem_append.mp member
  refine ⟨by omega, fun row member => ?_, fun row member => ?_⟩
  · rcases rows row member with old | new
    · have bounds := sound.ids row old
      omega
    · have bounds := id_of_mem_numbered new
      omega
  · rcases rows row member with old | new
    · exact sound.cells row old
    · obtain ⟨draft, drawn, same⟩ := List.mem_map.mp (cells_of_mem_numbered new)
      rw [← same]
      exact .of_draft (stores.fits draft drawn) env.now

/-- The trigger leaves a row alone whose stamp is another one. -/
theorem stamped_of_ne {table : Table} {clock : String} {old new : Cells}
    (moved : new.updated ≠ old.updated) : table.stamped clock old new = new := by
  unfold stamped
  simp [moved]

/-- What a change leaves of a sound table: every row but that of the identifier, which
gets its new amount and a stamp behind the previous one and not before the present.  The
change is handed out as that row reads. -/
theorem Sound.of_amends {id : Int} {compute : Int → Int} {made : Change} (sound : before.Sound)
    (amends : Amends env id compute before made after) :
    ∃ (row : Row) (created updated stamp : Instant),
      (row ∈ before.rows ∧ row.id = id) ∧
      (row.cells.created = created.storedText ∧ row.cells.updated = updated.storedText) ∧
      (updated < stamp ∧ env.now ≤ stamp) ∧
      made = ⟨row.cells.amount, ⟨id, row.cells.miner, row.cells.pool, row.cells.challenge,
        compute row.cells.amount, .plain created, .plain stamp⟩⟩ ∧
      (after.rows = before.rows.map fun other =>
        if other.id = id then row.restamped (compute row.cells.amount) stamp else other) ∧
      created ≤ updated ∧ isAmount (compute row.cells.amount) = true ∧
        compute row.cells.amount ≤ storedHigh := by
  obtain ⟨executes, commits, found, read, amount, fits, later⟩ := amends
  obtain ⟨held, same⟩ := find?_eq_some_iff.mp found
  obtain ⟨created, updated, ordered, first, last⟩ := (sound.cells _ held).stamps
  obtain rfl := Except.ok.inj (read.symm.trans (Earning.ofRow_eq_ok first last))
  obtain ⟨behind, present⟩ := later_of_nextStamp? later
  refine ⟨_, created, updated, _, ⟨held, same⟩, ⟨first, last⟩, ⟨behind, present⟩, ?_, ?_,
    ordered, amount, fits⟩
  · simp only [same]
  · refine List.map_congr_left fun other member => ?_
    by_cases here : other.id = id
    · obtain rfl := row_unique member held (here.trans same.symm)
      rw [if_pos here, if_pos here]
      -- the trigger compares texts, and the texts of two instants are two texts
      rw [stamped_of_ne]
      · rfl
      · rw [last]
        intro equal
        obtain rfl := Instant.storedText_injective equal
        exact Nat.lt_irrefl _ behind
    · rw [if_neg here, if_neg here]

/-- A change keeps a table sound. -/
theorem Sound.amends {id : Int} {compute : Int → Int} {made : Change} (sound : before.Sound)
    (amends : Amends env id compute before made after) : after.Sound := by
  have counter : after.counter = before.counter := by
    cases amends
    rfl
  obtain ⟨row, created, updated, stamp, ⟨held, rfl⟩, ⟨first, -⟩, ⟨behind, -⟩, -, rows, ordered,
    amount, fits⟩ := sound.of_amends amends
  have kept : ∀ other ∈ after.rows,
      (other ∈ before.rows ∨ other = row.restamped (compute row.cells.amount) stamp) := by
    intro other member
    rw [rows] at member
    obtain ⟨old, there, rfl⟩ := List.mem_map.mp member
    split
    · exact .inr rfl
    · exact .inl there
  refine ⟨by rw [counter]; exact sound.counter, fun other member => ?_, fun other member => ?_⟩
  · rw [counter]
    rcases kept other member with there | rfl
    · exact sound.ids other there
    · exact sound.ids row held
  · rcases kept other member with there | rfl
    · exact sound.cells other there
    · have cells := sound.cells row held
      exact ⟨cells.miner, cells.pool, cells.challenge, ⟨(isAmount_iff.mp amount).1, fits⟩,
        created, stamp, Nat.le_trans ordered (Nat.le_of_lt behind), first, rfl⟩

/-- **One call keeps a table sound.** -/
theorem Sound.effect {call : Call} {answer : Answer} (sound : before.Sound)
    (effect : Call.Effect env before call answer after) : after.Sound := by
  cases effect with
  | read reads => exact sound
  | created admitted stores => exact sound.stores stores
  | createdNone admitted => exact sound
  | createdMany admitted some stores => exact sound.stores stores
  | amended asks key amends => exact sound.amends amends

end Storage.Table

/-- **Tables stay sound**: behind every run from a ledger without rows the table is
sound. -/
theorem sound_after (trigger : Bool) (turns : List Turn) :
    ∃ after, storeAfter (freshStore trigger) turns = some after ∧ after.Sound :=
  table_after (P := Table.Sound) (fun sound effect => sound.effect effect) (.empty trigger) turns

end EarningsLedger
