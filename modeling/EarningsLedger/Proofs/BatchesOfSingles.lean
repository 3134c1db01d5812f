import EarningsLedger.Proofs.FreshIdentifiers
import EarningsLedger.Proofs.ToldEarnings

/-!
# A batch is its items, one after another

Earnings are opened one at a time or many at a time.  A batch is read as a whole before
anything is stored, and is stored in one session; single calls are read and stored in turn.
`batch_equals_single_creates` says that nothing but the failures tells them apart: a batch is
opened exactly when each of its items could be opened on its own, and then just as if they
had been opened one after another.  A batch that is not opened leaves the store alone; it is
refused over the first item that is no earning, and only when all of them are, over the
largest amount.
-/

namespace EarningsLedger

open Storage Writing

variable {env : Environment} {before : Table}

/-! ## Storing drafts in a table with room -/

namespace Writing

/-- Drafts that all fit are stored behind the rows that are there. -/
theorem session_storeDrafts_of_fits (calm : env.injection = none) {drafts : List Draft}
    (fits : ∀ draft ∈ drafts, draft.amount.val ≤ storedHigh)
    (room : before.highest + drafts.length ≤ storedHigh) :
    session (storeDrafts env drafts) (some before) =
      (some (before.extended (cellsAt env.now drafts)),
        .ok (numbered (before.highest + 1) (cellsAt env.now drafts))) :=
  session_storeDrafts_eq_ok_iff.mpr
    ⟨before, _, rfl, rfl, ⟨strike_of_calm calm .commit, fits, .inr room, rfl⟩, rfl⟩

/-- Drafts that do not all fit are not stored. -/
theorem session_storeDrafts_of_large (calm : env.injection = none) {drafts : List Draft}
    (large : ¬ ∀ draft ∈ drafts, draft.amount.val ≤ storedHigh) :
    session (storeDrafts env drafts) (some before) = (some before, .error .tooLarge) := by
  have unfit : ¬ (cellsAt env.now drafts).all Cells.storable = true :=
    all_storable_cellsAt_iff.not.mpr large
  have refused : storeDrafts env drafts (some before) = (some before, .error .tooLarge) := by
    unfold storeDrafts
    rw [strike_of_calm calm .commit]
    show ((some (insertRows (cellsAt env.now drafts) before).1,
      (insertRows (cellsAt env.now drafts) before).2) : Store × Except Fault (List Row)) = _
    rw [insertRows, if_neg unfit]
  rw [session, refused]

theorem createDraft_of_fits (calm : env.injection = none) {draft : Draft}
    (fits : draft.amount.val ≤ storedHigh) (room : before.highest + 1 ≤ storedHigh) :
    (createDraft env (some before) draft).audited.outcome =
        .ok (Earning.ofDraft draft env.now (before.highest + 1)) ∧
      (createDraft env (some before) draft).store =
        some (before.extended (cellsAt env.now [draft])) := by
  have stored : session (storeDrafts env [draft]) (some before) = _ :=
    session_storeDrafts_of_fits calm (List.forall_mem_singleton.mpr fits) room
  unfold createDraft
  rw [stored]
  dsimp only
  rw [earningsOf_numbered]
  exact ⟨rfl, rfl⟩

theorem createDraft_of_large (calm : env.injection = none) {draft : Draft}
    (large : storedHigh < draft.amount.val) :
    (createDraft env (some before) draft).audited.outcome =
      .error (.ledger (.overflow (.int draft.amount.val) (.text Fault.tooLarge.detail))) := by
  have refused : session (storeDrafts env [draft]) (some before) = _ :=
    session_storeDrafts_of_large calm
      (List.forall_mem_singleton.not.mpr (Int.not_le.mpr large))
  unfold createDraft
  rw [refused]
  exact outcome_writeFault ..

theorem createDrafts_of_fits (calm : env.injection = none) {drafts : List Draft}
    (fits : ∀ draft ∈ drafts, draft.amount.val ≤ storedHigh)
    (room : before.highest + drafts.length ≤ storedHigh) :
    (createDrafts env (some before) drafts).audited.outcome =
        .ok (earningsFrom env.now (before.highest + 1) drafts) ∧
      (createDrafts env (some before) drafts).store =
        some (before.extended (cellsAt env.now drafts)) := by
  cases drafts with
  | nil => exact ⟨rfl, congrArg some (Table.extended_nil before).symm⟩
  | cons first rest =>
    unfold createDrafts
    simp only [List.isEmpty_cons, Bool.false_eq_true, if_false,
      session_storeDrafts_of_fits calm fits room, earningsOf_numbered, and_true]
    rfl

theorem createDrafts_of_large (calm : env.injection = none) {drafts : List Draft}
    (large : ¬ ∀ draft ∈ drafts, draft.amount.val ≤ storedHigh) :
    (createDrafts env (some before) drafts).audited.outcome =
      .error (.ledger (.overflow (.int (largestAmount drafts)) (.text Fault.tooLarge.detail))) := by
  cases drafts with
  | nil => exact absurd (List.forall_mem_nil _) large
  | cons first rest =>
    unfold createDrafts
    simp only [List.isEmpty_cons, Bool.false_eq_true, if_false,
      session_storeDrafts_of_large calm large]
    exact outcome_writeFault ..

/-- The largest amount of drafts is the largest of their amounts. -/
theorem largestAmount_eq (drafts : List Draft) :
    largestAmount drafts = largest (drafts.map fun draft => draft.amount.val) := by
  rw [largest, List.foldl_map]
  rfl

end Writing

/-! ## Single calls -/

namespace Call

variable {item : Fields} {draft : Draft}

/-- A call for an earning that its names do not tell fails as reading them does. -/
theorem run_create_of_untold (tells : item.TellsEarning) {failure : Failure}
    (untold : item.drafted = .error failure) (env : Environment) (store : Store) :
    ((create item).run env store).outcome = .error failure :=
  writing_of_refused ((outcome_admitDraft tells).trans untold)

/-- A call for an earning that its names tell ends as storing it does. -/
theorem run_create_of_told (tells : item.TellsEarning) (told : item.drafted = .ok draft)
    (env : Environment) (store : Store) :
    ((create item).run env store).outcome =
        (createDraft env store draft).audited.outcome.map .earning ∧
      ((create item).run env store).store = (createDraft env store draft).store :=
  writing_of_admitted ((outcome_admitDraft tells).trans told)

theorem run_create_of_fits (calm : env.injection = none) (tells : item.TellsEarning)
    (told : item.drafted = .ok draft) (fits : draft.amount.val ≤ storedHigh)
    (room : before.highest + 1 ≤ storedHigh) :
    ((create item).run env (some before)).outcome =
        .ok (.earning (Earning.ofDraft draft env.now (before.highest + 1))) ∧
      ((create item).run env (some before)).store =
        some (before.extended (cellsAt env.now [draft])) := by
  obtain ⟨ended, left⟩ := run_create_of_told tells told env (some before)
  rw [ended, left, (createDraft_of_fits calm fits room).1, (createDraft_of_fits calm fits room).2]
  exact ⟨rfl, rfl⟩

theorem run_create_of_large (calm : env.injection = none) (tells : item.TellsEarning)
    (told : item.drafted = .ok draft) (large : storedHigh < draft.amount.val) (before : Table) :
    ((create item).run env (some before)).outcome =
      .error (.ledger (.overflow (.int draft.amount.val) (.text Fault.tooLarge.detail))) := by
  rw [(run_create_of_told tells told env (some before)).1, createDraft_of_large calm large]
  rfl

end Call

/-- The turns of calls for new earnings, all made in one environment. -/
def creating (env : Environment) (items : List Fields) : List Turn :=
  items.map fun item => ⟨env, .create item⟩

/-- **Earnings that are opened one after another** get the identifiers in their order, and
the table grows by all of them. -/
theorem creating_of_fits (calm : env.injection = none) {items : List Fields} {drafts : List Draft}
    (tell : ∀ item ∈ items, item.TellsEarning)
    (told : List.Forall₂ (fun item draft => item.drafted = .ok draft) items drafts)
    (fits : ∀ draft ∈ drafts, draft.amount.val ≤ storedHigh)
    (room : before.highest + drafts.length ≤ storedHigh) :
    (history (some before) (creating env items)).map Event.outcome =
        (earningsFrom env.now (before.highest + 1) drafts).map (fun earning => .ok (.earning earning)) ∧
      storeAfter (some before) (creating env items) =
        some (before.extended (cellsAt env.now drafts)) := by
  induction told generalizing before with
  | nil => exact ⟨rfl, congrArg some (Table.extended_nil before).symm⟩
  | @cons item draft items drafts here told ih =>
    obtain ⟨tells, tell⟩ := List.forall_mem_cons.mp tell
    obtain ⟨small, fits⟩ := List.forall_mem_cons.mp fits
    rw [List.length_cons] at room
    have next : before.highest + 1 ≤ storedHigh := by omega
    obtain ⟨opened, left⟩ := Call.run_create_of_fits calm tells here small next
    -- the calls behind the first find the table grown by one row
    let grown := before.extended (cellsAt env.now [draft])
    have top : grown.highest = before.highest + 1 := Table.highest_extended before _
    have others : grown.highest + drafts.length ≤ storedHigh := by omega
    obtain ⟨outcomes, whole⟩ := ih tell fits others
    have joined : grown.extended (cellsAt env.now drafts) =
        before.extended (cellsAt env.now (draft :: drafts)) :=
      Table.extended_extended before _ _
    rw [top] at outcomes
    rw [joined] at whole
    constructor
    · show ((⟨env, .create item⟩ : Turn).event (some before)).outcome ::
        (history ((Call.create item).run env (some before)).store (creating env items)).map
          Event.outcome = _
      rw [left, outcomes]
      exact congrArg (· :: _) opened
    · show storeAfter ((Call.create item).run env (some before)).store (creating env items) = _
      rw [left, whole]

/-! ## Batches -/

/-- How a batch ends where no fault strikes and there are identifiers for all of it: over the
first item that is no earning, over the largest amount when one is too large, or with all of
its earnings opened. -/
inductive BatchEnds (env : Environment) (before : Table) (items : List Fields) :
    Except Failure Answer → Store → Prop
  | invalid {earlier later : List Fields} {item : Fields} {failure : Failure}
    (split : items = earlier ++ item :: later)
    (told : ∀ other ∈ earlier, ∃ draft, other.drafted = .ok draft)
    (untold : item.drafted = .error failure) :
    BatchEnds env before items (.error failure) (some before)
  | large {drafts : List Draft}
    (told : List.Forall₂ (fun item draft => item.drafted = .ok draft) items drafts)
    (large : ¬ ∀ draft ∈ drafts, draft.amount.val ≤ storedHigh) :
    BatchEnds env before items
      (.error (.ledger (.overflow (.int (largestAmount drafts)) (.text Fault.tooLarge.detail))))
      (some before)
  | opened {drafts : List Draft}
    (told : List.Forall₂ (fun item draft => item.drafted = .ok draft) items drafts)
    (fits : ∀ draft ∈ drafts, draft.amount.val ≤ storedHigh) :
    BatchEnds env before items (.ok (.earnings (earningsFrom env.now (before.highest + 1) drafts)))
      (some (before.extended (cellsAt env.now drafts)))

/-- A batch whose items tell earnings ends as storing them does. -/
theorem Call.run_createBatch_of_told {items : List Fields} {drafts : List Draft}
    (tell : ∀ item ∈ items, item.TellsEarning) (told : items.mapM Fields.drafted = .ok drafts)
    (env : Environment) (store : Store) :
    ((createBatch (.list (items.map Value.ofFields))).run env store).outcome =
        (createDrafts env store drafts).audited.outcome.map .earnings ∧
      ((createBatch (.list (items.map Value.ofFields))).run env store).store =
        (createDrafts env store drafts).store :=
  writing_of_admitted ((outcome_admitBatch tell).trans told)

/-- **How a batch ends.** -/
theorem Call.createBatch_ends (calm : env.injection = none) {items : List Fields}
    (tell : ∀ item ∈ items, item.TellsEarning)
    (room : before.highest + items.length ≤ storedHigh) :
    BatchEnds env before items
      ((createBatch (.list (items.map Value.ofFields))).run env (some before)).outcome
      ((createBatch (.list (items.map Value.ofFields))).run env (some before)).store := by
  cases read : items.mapM Fields.drafted with
  | error failure =>
    have refused : ((createBatch (.list (items.map Value.ofFields))).run env
        (some before)).outcome = .error failure :=
      writing_of_refused ((outcome_admitBatch tell).trans read)
    rw [refused, store_of_error refused]
    obtain ⟨earlier, item, later, split, told, untold⟩ := mapM_error_cases read
    exact .invalid split told untold
  | ok drafts =>
    have told := mapM_eq_ok_iff.mp read
    obtain ⟨ended, left⟩ := run_createBatch_of_told tell read env (some before)
    by_cases fits : ∀ draft ∈ drafts, draft.amount.val ≤ storedHigh
    · rw [told.length_eq] at room
      obtain ⟨opened, grown⟩ := createDrafts_of_fits calm fits room
      rw [ended, left, opened, grown]
      exact .opened told fits
    · have refused := ended.trans (congrArg _ (createDrafts_of_large calm fits))
      rw [refused, store_of_error refused]
      exact .large told fits

/-- The largest amount of drafts that do not all fit does not fit, and is the amount of one of
them. -/
theorem largestAmount_of_large {drafts : List Draft}
    (large : ¬ ∀ draft ∈ drafts, draft.amount.val ≤ storedHigh) :
    storedHigh < largestAmount drafts ∧
      (∃ draft ∈ drafts, draft.amount.val = largestAmount drafts) ∧
      ∀ draft ∈ drafts, draft.amount.val ≤ largestAmount drafts := by
  rw [largestAmount_eq]
  have below : ∀ draft ∈ drafts,
      draft.amount.val ≤ largest (drafts.map fun draft => draft.amount.val) :=
    fun draft member => le_largest (List.mem_map_of_mem member)
  have high : storedHigh < largest (drafts.map fun draft => draft.amount.val) := by
    by_contra low
    exact large fun draft member => Int.le_trans (below draft member) (Int.not_lt.mp low)
  have positive : 0 < largest (drafts.map fun draft => draft.amount.val) :=
    Int.lt_trans (by decide) high
  exact ⟨high, List.mem_map.mp (largest_mem positive), below⟩

namespace BatchEnds

variable {items : List Fields} {outcome : Except Failure Answer} {left : Store}

/-- A batch is opened exactly when each item would be on its own. -/
theorem ok_iff (ends : BatchEnds env before items outcome left) (calm : env.injection = none)
    (tell : ∀ item ∈ items, item.TellsEarning)
    (room : before.highest + items.length ≤ storedHigh) :
    (∃ answer, outcome = .ok answer) ↔
      ∀ item ∈ items, ∃ answer, ((Call.create item).run env (some before)).outcome = .ok answer := by
  cases ends with
  | @invalid earlier later item failure split told untold =>
    have member : item ∈ items := split ▸ List.mem_append_right earlier List.mem_cons_self
    refine iff_of_false (by simp) fun every => ?_
    obtain ⟨answer, done⟩ := every item member
    have failed := Call.run_create_of_untold (tell item member) untold env (some before)
    cases failed.symm.trans done
  | @large drafts told large =>
    refine iff_of_false (by simp) fun every => large fun draft drawn => ?_
    obtain ⟨item, member, drafted⟩ := exists_of_forall₂_right told drawn
    obtain ⟨answer, done⟩ := every item member
    by_contra high
    have failed := Call.run_create_of_large calm (tell item member) drafted
      (Int.not_le.mp high) before
    cases failed.symm.trans done
  | @opened drafts told fits =>
    refine iff_of_true ⟨_, rfl⟩ fun item member => ?_
    obtain ⟨draft, drawn, drafted⟩ := exists_of_forall₂_left told member
    have some := List.length_pos_of_mem member
    exact ⟨_, (Call.run_create_of_fits calm (tell item member) drafted (fits draft drawn)
      (by omega)).1⟩

/-- An opened batch gives and leaves what calling for its items one after another does. -/
theorem singles_of_ok {answer : Answer} (ends : BatchEnds env before items (.ok answer) left)
    (calm : env.injection = none) (tell : ∀ item ∈ items, item.TellsEarning)
    (room : before.highest + items.length ≤ storedHigh) :
    ∃ earnings, answer = .earnings earnings ∧
      (history (some before) (creating env items)).map Event.outcome =
        earnings.map (fun earning => .ok (.earning earning)) ∧
      storeAfter (some before) (creating env items) = left := by
  cases ends with
  | opened told fits =>
    rw [told.length_eq] at room
    exact ⟨_, rfl, creating_of_fits calm tell told fits room⟩

/-- What is reported of a batch that is not opened. -/
theorem error_cases {failure : Failure} (ends : BatchEnds env before items (.error failure) left)
    (tell : ∀ item ∈ items, item.TellsEarning) :
    (∃ earlier item later, items = earlier ++ item :: later ∧
      (∀ other ∈ earlier, ∃ draft : Draft, draft.ToldBy other) ∧
      (¬ ∃ draft : Draft, draft.ToldBy item) ∧ (∃ error : LedgerError, failure = error.raised) ∧
      ((Call.create item).run env (some before)).outcome = .error failure) ∨
    ((∀ item ∈ items, ∃ draft : Draft, draft.ToldBy item) ∧ ∃ top words,
      failure = .ledger (.overflow (.int top) words) ∧ storedHigh < top ∧
      (∃ item ∈ items, ∃ draft : Draft, draft.ToldBy item ∧ draft.amount.val = top) ∧
      ∀ item ∈ items, ∀ draft : Draft, draft.ToldBy item → draft.amount.val ≤ top) := by
  simp only [← Fields.drafted_eq_ok_iff]
  cases ends with
  | @invalid earlier later item _ split told untold =>
    have member : item ∈ items := split ▸ List.mem_append_right earlier List.mem_cons_self
    obtain ⟨none, worded⟩ := Fields.drafted_eq_error untold
    refine .inl ⟨earlier, item, later, split, told, ?_, worded,
      Call.run_create_of_untold (tell item member) untold env (some before)⟩
    simpa only [Fields.drafted_eq_ok_iff] using none
  | @large drafts told large =>
    obtain ⟨high, ⟨draft, drawn, top⟩, below⟩ := largestAmount_of_large large
    refine .inr ⟨fun item member => ?_, _, _, rfl, high, ?_, fun item member draft' drafted => ?_⟩
    · obtain ⟨draft', -, drafted⟩ := exists_of_forall₂_left told member
      exact ⟨draft', drafted⟩
    · obtain ⟨item, member, drafted⟩ := exists_of_forall₂_right told drawn
      exact ⟨item, member, draft, drafted, top⟩
    · obtain ⟨other, there, same⟩ := exists_of_forall₂_left told member
      obtain rfl := Except.ok.inj (drafted.symm.trans same)
      exact below _ there

end BatchEnds

/-- **A batch equals the sequence of single calls.**  On any table that has identifiers for
all of its items, by any clock and where no fault strikes: a batch is opened exactly when each
item would be opened on its own.  It then gives the earnings, and leaves the store, that
calling for the items one after another does.  A batch that is not opened leaves the store
alone.  If some item tells no earning, it fails as a call for the first such item does; if
all of them do, the largest of their amounts is reported, which then does not fit. -/
theorem batch_equals_single_creates {env : Environment} (calm : env.injection = none)
    (before : Table) {items : List Fields} (tell : ∀ item ∈ items, item.TellsEarning)
    (room : before.highest + items.length ≤ storedHigh) :
    let batch := (Call.createBatch (.list (items.map Value.ofFields))).run env (some before)
    let single (item : Fields) := (Call.create item).run env (some before)
    ((∃ answer, batch.outcome = .ok answer) ↔
      ∀ item ∈ items, ∃ answer, (single item).outcome = .ok answer) ∧
    (∀ answer, batch.outcome = .ok answer → ∃ earnings, answer = .earnings earnings ∧
      (history (some before) (creating env items)).map Event.outcome =
        earnings.map (fun earning => .ok (.earning earning)) ∧
      storeAfter (some before) (creating env items) = batch.store) ∧
    (∀ failure, batch.outcome = .error failure → batch.store = some before ∧
      ((∃ earlier item later, items = earlier ++ item :: later ∧
        (∀ other ∈ earlier, ∃ draft : Draft, draft.ToldBy other) ∧
        (¬ ∃ draft : Draft, draft.ToldBy item) ∧
        (∃ error : LedgerError, failure = error.raised) ∧
        (single item).outcome = .error failure) ∨
      ((∀ item ∈ items, ∃ draft : Draft, draft.ToldBy item) ∧ ∃ top words,
        failure = .ledger (.overflow (.int top) words) ∧ storedHigh < top ∧
        (∃ item ∈ items, ∃ draft : Draft, draft.ToldBy item ∧ draft.amount.val = top) ∧
        ∀ item ∈ items, ∀ draft : Draft, draft.ToldBy item → draft.amount.val ≤ top))) := by
  intro batch single
  have ends : BatchEnds env before items batch.outcome batch.store :=
    Call.createBatch_ends calm tell room
  refine ⟨ends.ok_iff calm tell room, fun answer done => ?_, fun failure failed => ?_⟩
  · rw [done] at ends
    exact ends.singles_of_ok calm tell room
  · rw [failed] at ends
    exact ⟨Call.store_of_error failed, ends.error_cases tell⟩

/-- An amount that fits no cell, and behind it an item whose miner is no number: the batch is
refused over the miner, as a call for that item is. -/
theorem broken_miner_goes_before_large_amount :
    let env : Environment := .usual ⟨0, by decide⟩
    let before : Table := .empty true
    let large : Fields := [("miner_id", .int 1), ("pool_id", .int 1), ("challenge_id", .int 1),
      ("amount", .int 9223372036854775808)]
    let broken : Fields := [("pool_id", .int 1), ("miner_id", .text "x"), ("challenge_id", .int 1)]
    let items := [large, broken]
    let batch := (Call.createBatch (.list (items.map Value.ofFields))).run env (some before)
    env.injection = none ∧ (∀ item ∈ items, item.TellsEarning) ∧
      before.highest + items.length ≤ storedHigh ∧
      ∃ failure, batch.outcome = .error failure ∧ batch.store = some before ∧
        ((Call.create broken).run env (some before)).outcome = .error failure := by
  intro env before large broken items batch
  have calm : env.injection = none := rfl
  have tell : ∀ item ∈ items, item.TellsEarning :=
    List.forall_mem_cons.mpr ⟨⟨by decide, by decide, rfl, rfl, rfl⟩,
      List.forall_mem_singleton.mpr ⟨by decide, by decide, rfl, rfl, rfl⟩⟩
  have room : before.highest + items.length ≤ storedHigh := by decide
  have untold : ¬ ∃ draft : Draft, draft.ToldBy broken := by
    intro some
    obtain ⟨draft, told⟩ := some
    cases told.miner
  obtain ⟨opens, -, errors⟩ := batch_equals_single_creates calm before tell room
  refine ⟨calm, tell, room, ?_⟩
  cases ended : batch.outcome with
  | ok answer =>
    obtain ⟨_, done⟩ := opens.mp ⟨answer, ended⟩ broken (List.mem_cons_of_mem _ List.mem_cons_self)
    cases done
  | error failure =>
    obtain ⟨kept, reason⟩ := errors failure ended
    rcases reason with ⟨earlier, item, later, split, -, none, -, failed⟩ | ⟨all, -⟩
    · have member : item ∈ items := split ▸ List.mem_append_right earlier List.mem_cons_self
      rcases List.mem_cons.mp member with rfl | member
      · -- the first item tells a draft, only the amount is too large for a cell
        let draft : Draft :=
          ⟨⟨1, by decide⟩, ⟨1, by decide⟩, ⟨1, by decide⟩, ⟨9223372036854775808, by decide⟩⟩
        exact absurd ⟨draft, rfl, rfl, rfl, rfl⟩ none
      · obtain rfl := List.mem_singleton.mp member
        exact ⟨failure, rfl, kept, failed⟩
    · exact absurd (all broken (List.mem_cons_of_mem _ List.mem_cons_self)) untold

end EarningsLedger
