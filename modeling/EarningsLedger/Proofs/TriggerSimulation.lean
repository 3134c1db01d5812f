import EarningsLedger.Proofs.RowFrames

/-!
# The trigger never shows

A table may carry a trigger that stamps a changed row, unless the change brought a stamp
of its own.  The ledger always brings one: the stamp of a change is later than the one
before, and two instants have two texts.  So a ledger on a table with the trigger and a
ledger on a table without it go through every run in step, and `trigger_never_shows` says
that nobody can tell them apart.

`Table.withTrigger` leads from one table to the other.  Each operation is shown to commute
with it, from the statements up to `Turn.reply_withTrigger`; only a change of an amount
needs its table to be sound, because a row whose stamp is no instant might keep it.
-/

namespace EarningsLedger

open Calendar Log Storage Writing

/-! ## Tables and stores -/

namespace Storage

/-- The table with a trigger or without one, its rows and its counter as they are. -/
def Table.withTrigger (table : Table) (trigger : Bool) : Table :=
  { table with trigger := trigger }

/-- The store with a trigger on its table, if it has one, or without it. -/
def triggered (trigger : Bool) (store : Store) : Store :=
  store.map fun table => table.withTrigger trigger

variable {table : Table} {trigger : Bool}

theorem Table.append?_withTrigger (cells : Cells) :
    (table.withTrigger trigger).append? cells =
      (table.append? cells).map fun done => (done.1.withTrigger trigger, done.2) := by
  unfold append?
  show (if table.highest < storedHigh then _ else _) = _
  split <;> rfl

/-- A change commutes with the trigger when it brings another stamp to the row that it
changes. -/
theorem Table.amend_withTrigger {id : Int} {change : Cells → Cells} (clock : String)
    (moves : ∀ row ∈ table.rows, row.id = id → (change row.cells).updated ≠ row.cells.updated) :
    (table.withTrigger trigger).amend clock id change =
      (table.amend clock id change).withTrigger trigger := by
  refine eq_of_parts (List.map_congr_left fun row member => ?_) rfl rfl
  by_cases here : row.id = id
  · have moved := moves row member here
    rw [if_pos here, if_pos here, stamped_of_ne moved, stamped_of_ne moved]
  · rw [if_neg here, if_neg here]

end Storage

/-! ## Work of a session -/

/-- The end of work on a table or a store, seen with the trigger. -/
def alongside {σ ε α : Type} (view : σ → σ) (done : σ × Except ε α) : σ × Except ε α :=
  (view done.1, done.2)

section Work

variable {table : Table} {trigger : Bool}

theorem Storage.appendRows_withTrigger (cells : List Cells) :
    appendRows cells (table.withTrigger trigger) =
      alongside (·.withTrigger trigger) (appendRows cells table) := by
  induction cells generalizing table with
  | nil => rfl
  | cons first rest ih =>
    unfold appendRows appendRow
    rw [Table.append?_withTrigger]
    cases table.append? first with
    | none => rfl
    | some done =>
      simp only [Option.map_some, ih, alongside]
      cases appendRows rest done.1 with
      | mk last ended => cases ended <;> rfl

theorem Writing.insertRows_withTrigger (cells : List Cells) :
    insertRows cells (table.withTrigger trigger) =
      alongside (·.withTrigger trigger) (insertRows cells table) := by
  unfold insertRows
  split
  · exact appendRows_withTrigger cells
  · rfl

theorem Storage.session_alongside {σ ε α : Type} {view : σ → σ} {work : Work σ ε α} {before : σ}
    (same : work (view before) = alongside view (work before)) :
    session work (view before) = alongside view (session work before) := by
  unfold session
  rw [same]
  cases work before with
  | mk after ended => cases ended <;> rfl

variable (env : Environment)

theorem Writing.storeDrafts_triggered (drafts : List Draft) (store : Store) :
    storeDrafts env drafts (triggered trigger store) =
      alongside (triggered trigger) (storeDrafts env drafts store) := by
  unfold storeDrafts
  cases strike env.injection .commit with
  | error fault => rfl
  | ok _ =>
    cases store with
    | none => rfl
    | some table =>
      show (some (insertRows _ (table.withTrigger trigger)).1, _) = _
      rw [insertRows_withTrigger]
      rfl

/-- Writing a change commutes with the trigger when the change has another stamp than the
row that it is written to. -/
theorem Writing.writeChange_withTrigger {earning : Earning}
    (moves : ∀ row ∈ table.rows, row.id = earning.id →
      earning.updated.reading.storedText ≠ row.cells.updated) :
    writeChange env (table.withTrigger trigger) earning =
      alongside (·.withTrigger trigger) (writeChange env table earning) := by
  unfold writeChange
  cases strike env.injection .commit with
  | error fault => rfl
  | ok _ =>
    dsimp only
    rw [Table.amend_withTrigger _ moves]
    split <;> rfl

/-- A change of a sound table commutes with the trigger: the row can be read, and its new
stamp is later than the one before. -/
theorem Writing.changeRow_withTrigger (sound : table.Sound) (id : Int) (compute : Int → Int) :
    changeRow env id compute (table.withTrigger trigger) =
      alongside (·.withTrigger trigger) (changeRow env id compute table) := by
  have found : (table.withTrigger trigger).find? id = table.find? id := rfl
  unfold changeRow
  rw [found]
  cases held : table.find? id with
  | none => rfl
  | some row =>
    obtain ⟨member, rfl⟩ := Table.find?_eq_some_iff.mp held
    obtain ⟨created, updated, -, first, last⟩ := (sound.cells row member).stamps
    simp only [Earning.ofRow_eq_ok first last]
    split
    · rfl
    · next amended computed =>
      obtain ⟨-, stamp, later, rfl⟩ := changed_eq_ok_iff.mp computed
      have moved : stamp.storedText ≠ updated.storedText := by
        intro text
        obtain rfl := Instant.storedText_injective text
        exact Nat.lt_irrefl _ (later_of_nextStamp? later).1
      rw [writeChange_withTrigger env]
      · rcases writeChange env table _ with ⟨left, halt | done⟩ <;> rfl
      · intro other there equal
        obtain rfl := Table.row_unique there member equal
        rw [last]
        exact moved

theorem Writing.changeStore_triggered (sound : table.Sound) (id : Int) (compute : Int → Int) :
    changeStore env id compute (triggered trigger (some table)) =
      alongside (triggered trigger) (changeStore env id compute (some table)) := by
  unfold changeStore
  cases strike env.injection .execute with
  | error fault => rfl
  | ok _ =>
    show (some (changeRow env id compute (table.withTrigger trigger)).1, _) = _
    rw [changeRow_withTrigger env sound]
    rfl

end Work

/-! ## Reading operations -/

namespace Reading

variable (env : Environment) (trigger : Bool) (store : Store)

@[simp] theorem rows_triggered (selection : Selection) :
    rows env (triggered trigger store) selection = rows env store selection := by
  cases store <;> rfl

@[simp] theorem earningAt_triggered (id : Int) :
    earningAt env (triggered trigger store) id = earningAt env store id := by
  cases store <;> rfl

@[simp] theorem get_triggered (id : Value) :
    get env (triggered trigger store) id = get env store id := by
  simp only [get, earningAt_triggered]

@[simp] theorem queryFilter_triggered (f : Filter) :
    queryFilter env (triggered trigger store) f = queryFilter env store f := by
  simp only [queryFilter, pageRows, rows_triggered]

@[simp] theorem countFilter_triggered (f : Filter) (withCursor : Bool) :
    countFilter env (triggered trigger store) f withCursor =
      countFilter env store f withCursor := by
  simp only [countFilter, rows_triggered]

@[simp] theorem totalFilter_triggered (f : Filter) :
    totalFilter env (triggered trigger store) f = totalFilter env store f := by
  simp only [totalFilter, rows_triggered]

@[simp] theorem totalsByMiner_triggered (pool challenge miner : Value) :
    totalsByMiner env (triggered trigger store) pool challenge miner =
      totalsByMiner env store pool challenge miner := by
  simp only [totalsByMiner, rows_triggered]

end Reading

/-! ## Replies -/

/-- What was written on a store, seen with the trigger. -/
def Writing.Written.triggered {α : Type} (written : Written α) (trigger : Bool) : Written α :=
  ⟨written.audited, Storage.triggered trigger written.store⟩

/-- A reply, seen with the trigger. -/
def Reply.triggered (reply : Reply) (trigger : Bool) : Reply :=
  ⟨reply.outcome, reply.entries, Storage.triggered trigger reply.store⟩

namespace Writing

variable {env : Environment} {trigger : Bool}

theorem afterCheck_triggered {α β : Type} {store : Store} {checked : Audited α}
    {next other : α → Written β} (same : ∀ a, other a = (next a).triggered trigger) :
    afterCheck (triggered trigger store) checked other =
      (afterCheck store checked next).triggered trigger := by
  unfold afterCheck
  cases checked.outcome with
  | error failure => rfl
  | ok a =>
    simp only [same]
    rfl

theorem createDraft_triggered (store : Store) (draft : Draft) :
    createDraft env (triggered trigger store) draft =
      (createDraft env store draft).triggered trigger := by
  unfold createDraft
  rw [session_alongside (storeDrafts_triggered env [draft] store)]
  rcases session (storeDrafts env [draft]) store with ⟨after, fault | rows⟩
  · rfl
  · simp only [alongside]
    cases earningsOf env [draft] rows <;> rfl

theorem createDrafts_triggered (store : Store) (drafts : List Draft) :
    createDrafts env (triggered trigger store) drafts =
      (createDrafts env store drafts).triggered trigger := by
  unfold createDrafts
  split
  · rfl
  · rw [session_alongside (storeDrafts_triggered env drafts store)]
    rcases session (storeDrafts env drafts) store with ⟨after, fault | rows⟩ <;> rfl

theorem change_triggered {table : Table} (sound : table.Sound) (id : Int) (compute : Int → Int)
    (event message : String) :
    change env (triggered trigger (some table)) id compute event message =
      (change env (some table) id compute event message).triggered trigger := by
  unfold change
  split
  · rw [session_alongside (changeStore_triggered env sound id compute)]
    rcases session (changeStore env id compute) (some table) with ⟨after, halt | made⟩ <;> rfl
  · rfl

end Writing

/-- **A turn is replied alike with the trigger and without it**, and leaves the same rows
and the same counter. -/
theorem Turn.reply_withTrigger {table : Table} (sound : table.Sound) (trigger : Bool)
    (turn : Turn) :
    turn.reply (triggered trigger (some table)) = (turn.reply (some table)).triggered trigger := by
  obtain ⟨env, call⟩ := turn
  have written : ∀ {α : Type} {answer : α → Answer} {one other : Written α},
      other = one.triggered trigger →
        Call.writing answer other = (Call.writing answer one).triggered trigger := by
    rintro α answer one _ rfl
    rfl
  cases call with
  | create arguments => exact written (afterCheck_triggered (createDraft_triggered _))
  | createBatch batch => exact written (afterCheck_triggered (createDrafts_triggered _))
  | updateAmount id amount =>
    exact written (afterCheck_triggered fun found => change_triggered sound ..)
  | addAmount id delta =>
    exact written (afterCheck_triggered fun found => change_triggered sound ..)
  | _ =>
    simp only [reply, Call.run, Call.countFor, Reading.getOrFail, Reading.pageOfFilter,
      Reading.totalsOfFilter, Reading.get_triggered, Reading.queryFilter_triggered,
      Reading.countFilter_triggered, Reading.totalFilter_triggered,
      Reading.totalsByMiner_triggered]
    rfl

/-! ## Runs -/

/-- **Runs go in step**: with the trigger the callers see what they see without it, and the
store that is left differs in the trigger only. -/
theorem run_withTrigger (trigger : Bool) (turns : List Turn) {table : Table}
    (sound : table.Sound) :
    history (triggered trigger (some table)) turns = history (some table) turns ∧
      storeAfter (triggered trigger (some table)) turns =
        triggered trigger (storeAfter (some table) turns) := by
  induction turns generalizing table with
  | nil => exact ⟨rfl, rfl⟩
  | cons turn rest ih =>
    have reply := turn.reply_withTrigger sound trigger
    obtain ⟨after, stored, still⟩ : ∃ after, (turn.reply (some table)).store = some after ∧
        after.Sound := by
      rcases turn.reply_cases table with ⟨_, _, kept⟩ | ⟨_, after, _, stored, effect⟩
      · exact ⟨table, kept, sound⟩
      · exact ⟨after, stored, sound.effect effect⟩
    have event : turn.event (triggered trigger (some table)) = turn.event (some table) := by
      unfold Turn.event
      rw [reply]
      rfl
    have left : (turn.reply (triggered trigger (some table))).store =
        triggered trigger (some after) := by
      rw [reply, ← stored]
      rfl
    obtain ⟨told, last⟩ := ih still
    simp only [history, storeAfter, event, left, stored]
    exact ⟨congrArg _ told, last⟩

/-- The stamp of an answered change is the one that is stored, trigger or not. -/
theorem Call.Effect.stored_stamp {env : Environment} {before after : Table} {call : Call}
    {answer : Answer} (sound : before.Sound) (effect : Call.Effect env before call answer after)
    {id : Int} (asked : call.changes? = some id) :
    ∃ earning, answer = .earning earning ∧ ∃ row ∈ after.rows, row.id = id ∧
      row.cells.updated = earning.updated.reading.storedText := by
  cases effect with
  | read reads =>
    rw [changes?_of_reads reads] at asked
    cases asked
  | created admitted stores => cases asked
  | createdNone admitted => cases asked
  | createdMany admitted some stores => cases asked
  | @amended _ _ compute _ _ asks key amends =>
    obtain rfl := Option.some.inj (asks.changes?.symm.trans asked)
    obtain ⟨row, created, updated, stamp, ⟨held, same⟩, -, -, rfl, rows, -⟩ :=
      sound.of_amends amends
    refine ⟨_, rfl, row.restamped (compute row.cells.amount) stamp, ?_, same, rfl⟩
    rw [rows]
    exact List.mem_map.mpr ⟨row, held, if_pos same⟩

/-- **The trigger never shows.**  Any run from a ledger without rows is seen alike by its
callers, turn by turn, results, errors and log entries included, whether the table carries
the trigger or not; and it leaves the same rows, to the texts of their stamps, and the same
counter.  Whoever changes an amount next is handed out the stamp that is then stored. -/
theorem trigger_never_shows (turns : List Turn) :
    history (freshStore true) turns = history (freshStore false) turns ∧
    ∃ guarded plain, storeAfter (freshStore true) turns = some guarded ∧
      storeAfter (freshStore false) turns = some plain ∧
      (guarded.trigger = true ∧ plain.trigger = false) ∧
      guarded.rows = plain.rows ∧ guarded.counter = plain.counter ∧
      ∀ (turn : Turn) (id : Int), (turn.event (some guarded)).changed? = some id →
        ∃ earning after, (turn.reply (some guarded)).outcome = .ok (.earning earning) ∧
          (turn.reply (some guarded)).store = some after ∧
          ∃ row ∈ after.rows, row.id = id ∧
            row.cells.updated = earning.updated.reading.storedText := by
  obtain ⟨told, last⟩ := run_withTrigger true turns (Table.Sound.empty false)
  obtain ⟨plain, without, sound⟩ := sound_after false turns
  -- a run without the trigger is its own image without it
  have still := (run_withTrigger false turns (Table.Sound.empty false)).2
  have left : storeAfter (freshStore true) turns = some (plain.withTrigger true) :=
    last.trans (congrArg (triggered true) without)
  have kept : plain = plain.withTrigger false :=
    Option.some.inj (without.symm.trans (still.trans (congrArg (triggered false) without)))
  refine ⟨told, plain.withTrigger true, plain, left, without, ⟨rfl, ?_⟩, rfl, rfl,
    fun turn id asked => ?_⟩
  · rw [kept]
    rfl
  · have guarded : (plain.withTrigger true).Sound := ⟨sound.counter, sound.ids, sound.cells⟩
    unfold Event.changed? at asked
    split at asked
    · next answer done =>
      obtain ⟨after, stored, effect⟩ := Call.effect_of_ok done
      obtain ⟨earning, rfl, row, member, same, stamp⟩ := effect.stored_stamp guarded asked
      exact ⟨earning, after, done, stored, row, member, same, stamp⟩
    · cases asked

/-- Past the ledger the trigger does show: a plain statement that changes an amount and
brings no stamp leaves the stamp of the database's clock. -/
example :
    let cells : Cells := ⟨1, 1, 1, 5, "", ""⟩
    let table : Table := ⟨[⟨1, cells⟩], 1, true, List.pairwise_singleton _ _⟩
    ((Statement.update (.int 1) [("amount", .int 6)]).run ⟨0, by decide⟩ (some table)).1.map
      (fun after => after.rows.map fun row => (row.cells.amount, row.cells.updated)) =
        some [(6, "0001-01-01 00:00:00.000")] := by
  rfl

end EarningsLedger
