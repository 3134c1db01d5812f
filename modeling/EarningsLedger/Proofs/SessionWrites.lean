import EarningsLedger.Proofs.AdmittedRequests
import EarningsLedger.Proofs.TableGrowth

/-!
# What a session of the ledger does

The ledger writes in two kinds of sessions: one stores drafts, the other changes an
amount.  `Writing.Stores` and `Writing.Amends` say what such a session needs and what
it leaves when it succeeds; `Writing.session_storeDrafts_eq_ok_iff` and
`Writing.session_changeStore_eq_ok_iff` say that these are all the ways to succeed.
Behind them the writing operations are taken apart into the check of the request and
the session.
-/

namespace EarningsLedger

open Calendar Storage

/-- An earning has the identifier of its row. -/
theorem Earning.id_of_ofRow {row : Row} {earning : Earning}
    (read : Earning.ofRow row = .ok earning) : earning.id = row.id := by
  unfold Earning.ofRow at read
  cases created : Earning.readStamp row.cells.created with
  | error fault =>
    rw [created] at read
    cases read
  | ok first =>
    rw [created] at read
    cases updated : Earning.readStamp row.cells.updated with
    | error fault =>
      rw [updated] at read
      cases read
    | ok second =>
      rw [updated] at read
      cases read
      rfl

namespace Writing

/-! ## Sessions -/

theorem session_eq_ok_iff {σ ε α : Type} {work : Work σ ε α} {before after : σ} {result : α} :
    session work before = (after, .ok result) ↔ work before = (after, .ok result) := by
  unfold session
  split
  · next done => rw [done]
  · next failed =>
    rw [failed]
    simp

/-- A session that fails leaves what it was given, and fails as its work does. -/
theorem kept_of_session {σ ε α : Type} {work : Work σ ε α} {before left : σ} {trouble : ε}
    (failed : session work before = (left, .error trouble)) : left = before := by
  have kept := session_of_error (congrArg Prod.snd failed)
  rw [failed] at kept
  exact kept

theorem error_of_session {σ ε α : Type} {work : Work σ ε α} {before left : σ} {trouble : ε}
    (failed : session work before = (left, .error trouble)) :
    (work before).2 = .error trouble := by
  unfold session at failed
  split at failed
  · cases failed
  · next refused =>
    cases failed
    rw [refused]

/-- Work on the table of a store gives a result exactly when it does on the table. -/
theorem ofTable_eq_ok_iff {ε α : Type} {done : Table × Except ε α} {left : Store} {result : α} :
    ((some done.1, done.2) : Store × Except ε α) = (left, .ok result) ↔
      ∃ after, left = some after ∧ done = (after, .ok result) := by
  rw [Prod.mk.injEq]
  constructor
  · intro whole
    obtain ⟨rfl, ended⟩ := whole
    exact ⟨_, rfl, Prod.ext rfl ended⟩
  · intro whole
    obtain ⟨after, rfl, rfl⟩ := whole
    exact ⟨rfl, rfl⟩

/-! ## Storing drafts -/

/-- The cells of drafts that are stored at an instant. -/
def cellsAt (now : Instant) (drafts : List Draft) : List Cells :=
  drafts.map fun draft => Earning.cellsOf draft now

/-- The earnings of drafts that are stored at an instant, under the identifiers from
`next` on. -/
def earningsFrom (now : Instant) : Int → List Draft → List Earning
  | _, [] => []
  | next, draft :: rest => Earning.ofDraft draft now next :: earningsFrom now (next + 1) rest

theorem earningsOf_numbered (env : Environment) (next : Int) (drafts : List Draft) :
    earningsOf env drafts (numbered next (cellsAt env.now drafts)) =
      earningsFrom env.now next drafts := by
  induction drafts generalizing next with
  | nil => rfl
  | cons draft rest ih =>
    simp only [earningsFrom, ← ih (next + 1)]
    rfl

theorem length_earningsFrom (now : Instant) (next : Int) (drafts : List Draft) :
    (earningsFrom now next drafts).length = drafts.length := by
  induction drafts generalizing next with
  | nil => rfl
  | cons draft rest ih => simp [earningsFrom, ih]

theorem length_cellsAt (now : Instant) (drafts : List Draft) :
    (cellsAt now drafts).length = drafts.length :=
  List.length_map _

theorem cellsAt_eq_nil_iff {now : Instant} {drafts : List Draft} :
    cellsAt now drafts = [] ↔ drafts = [] :=
  List.map_eq_nil_iff

/-- Drafts hold keys, so only their amounts can be too large for a cell. -/
theorem all_storable_cellsAt_iff {now : Instant} {drafts : List Draft} :
    (cellsAt now drafts).all Cells.storable = true ↔
      ∀ draft ∈ drafts, draft.amount.val ≤ storedHigh := by
  have one : ∀ draft : Draft,
      (Earning.cellsOf draft now).storable = true ↔ draft.amount.val ≤ storedHigh := by
    intro draft
    have miner := draft.miner.bounds
    have pool := draft.pool.bounds
    have challenge := draft.challenge.bounds
    have amount := draft.amount.bounds
    simp only [keyLow, keyHigh] at miner pool challenge
    simp only [Cells.storable, Earning.cellsOf, Bool.and_eq_true, isStorable_iff, storedLow,
      storedHigh]
    omega
  simp only [cellsAt, List.all_map, List.all_eq_true, Function.comp, one]

/-- What storing drafts needs and leaves: the commit is not struck, every amount fits
its cell, there are identifiers for all drafts, and the table grows by their cells. -/
structure Stores (env : Environment) (drafts : List Draft) (before after : Table) : Prop where
  commits : strike env.injection .commit = .ok ()
  fits : ∀ draft ∈ drafts, draft.amount.val ≤ storedHigh
  room : drafts = [] ∨ before.highest + drafts.length ≤ storedHigh
  grown : after = before.extended (cellsAt env.now drafts)

theorem insertRows_eq_ok_iff {cells : List Cells} {before after : Table} {rows : List Row} :
    insertRows cells before = (after, .ok rows) ↔
      cells.all Cells.storable = true ∧ appendRows cells before = (after, .ok rows) := by
  unfold insertRows
  split
  · next fits => simp [fits]
  · next large => simp [large]

/-- Inserting the cells of drafts succeeds exactly where the drafts can be stored. -/
theorem insertRows_cellsAt_eq_ok_iff {env : Environment}
    (commits : strike env.injection .commit = .ok ()) {drafts : List Draft}
    {before after : Table} {rows : List Row} :
    insertRows (cellsAt env.now drafts) before = (after, .ok rows) ↔
      Stores env drafts before after ∧
        rows = numbered (before.highest + 1) (cellsAt env.now drafts) := by
  rw [insertRows_eq_ok_iff, all_storable_cellsAt_iff, appendRows_eq_ok_iff, length_cellsAt,
    cellsAt_eq_nil_iff]
  constructor
  · intro whole
    obtain ⟨fits, room, grown, numbers⟩ := whole
    exact ⟨⟨commits, fits, room, grown⟩, numbers⟩
  · intro whole
    obtain ⟨⟨-, fits, room, grown⟩, numbers⟩ := whole
    exact ⟨fits, room, grown, numbers⟩

/-- Storing drafts succeeds exactly on a table where it can, and leaves it grown. -/
theorem session_storeDrafts_eq_ok_iff {env : Environment} {drafts : List Draft}
    {store left : Store} {rows : List Row} :
    session (storeDrafts env drafts) store = (left, .ok rows) ↔
      ∃ before after, store = some before ∧ left = some after ∧
        Stores env drafts before after ∧
        rows = numbered (before.highest + 1) (cellsAt env.now drafts) := by
  rw [session_eq_ok_iff]
  unfold storeDrafts
  cases struck : strike env.injection .commit with
  | error fault =>
    simp only [Prod.mk.injEq, reduceCtorEq, and_false, false_iff]
    intro whole
    obtain ⟨before, after, -, -, stores, -⟩ := whole
    have commits := stores.commits
    rw [struck] at commits
    cases commits
  | ok _ =>
    cases store with
    | none => simp [onTable]
    | some before =>
      refine ofTable_eq_ok_iff.trans ?_
      constructor
      · intro whole
        obtain ⟨after, rfl, done⟩ := whole
        obtain ⟨stores, numbers⟩ := (insertRows_cellsAt_eq_ok_iff struck).mp done
        exact ⟨before, after, rfl, rfl, stores, numbers⟩
      · intro whole
        obtain ⟨_, after, same, rfl, stores, numbers⟩ := whole
        cases same
        exact ⟨after, rfl, (insertRows_cellsAt_eq_ok_iff struck).mpr ⟨stores, numbers⟩⟩

/-! ## Changing an amount -/

/-- What a change of an amount needs and leaves: no operation of the session is struck,
the row is there and can be read, the new amount is one and fits its cell, and there is
a stamp behind the previous one.  The row then holds the new amount and that stamp. -/
inductive Amends (env : Environment) (id : Int) (compute : Int → Int) (before : Table) :
    Change → Table → Prop
  | intro {row : Row} {earning : Earning} {stamp : Instant}
    (executes : strike env.injection .execute = .ok ())
    (commits : strike env.injection .commit = .ok ())
    (found : before.find? id = some row)
    (read : Earning.ofRow row = .ok earning)
    (amount : isAmount (compute earning.amount) = true)
    (fits : compute earning.amount ≤ storedHigh)
    (later : nextStamp? env.now (some earning.updated) = some stamp) :
    Amends env id compute before
      ⟨earning.amount, { earning with
        amount := compute earning.amount
        updated := .plain stamp }⟩
      (before.amend env.databaseNow.milliText id fun cells =>
        { cells with amount := compute earning.amount, updated := stamp.storedText })

theorem changed_eq_ok_iff {env : Environment} {earning after : Earning} {new : Int} :
    changed env earning new = .ok after ↔
      isAmount new = true ∧ ∃ stamp, nextStamp? env.now (some earning.updated) = some stamp ∧
        after = { earning with amount := new, updated := .plain stamp } := by
  unfold changed
  cases isAmount new with
  | false => simp
  | true =>
    cases nextStamp? env.now (some earning.updated) with
    | none => simp
    | some stamp => simp [eq_comm]

theorem writeChange_eq_ok_iff {env : Environment} {table left : Table} {earning : Earning} :
    writeChange env table earning = (left, .ok ()) ↔
      strike env.injection .commit = .ok () ∧ isStorable earning.amount = true ∧
        left = table.amend env.databaseNow.milliText earning.id fun cells =>
          { cells with
            amount := earning.amount
            updated := earning.updated.reading.storedText } := by
  unfold writeChange
  cases strike env.injection .commit with
  | error fault => simp
  | ok _ =>
    cases isStorable earning.amount with
    | false => simp
    | true => simp [eq_comm]

/-- A row is changed exactly when every step of the change succeeds. -/
theorem changeRow_steps {env : Environment} {id : Int} {compute : Int → Int}
    {before after : Table} {made : Change} :
    changeRow env id compute before = (after, .ok made) ↔
      ∃ row earning amended, before.find? id = some row ∧ Earning.ofRow row = .ok earning ∧
        changed env earning (compute earning.amount) = .ok amended ∧
        writeChange env before amended = (after, .ok ()) ∧ made = ⟨earning.amount, amended⟩ := by
  unfold changeRow
  cases before.find? id with
  | none => simp
  | some row =>
    cases read : Earning.ofRow row with
    | error fault => simp [read]
    | ok earning =>
      cases computed : changed env earning (compute earning.amount) with
      | error halt => simp [read, computed]
      | ok amended =>
        rcases written : writeChange env before amended with ⟨left, _ | _⟩ <;>
          simp [read, computed, written, eq_comm]

/-- A row is changed exactly where its amount can be. -/
theorem changeRow_eq_ok_iff {env : Environment}
    (executes : strike env.injection .execute = .ok ()) {id : Int} {compute : Int → Int}
    {before after : Table} {made : Change} :
    changeRow env id compute before = (after, .ok made) ↔
      Amends env id compute before made after := by
  rw [changeRow_steps]
  constructor
  · intro whole
    obtain ⟨row, earning, amended, found, read, computed, written, rfl⟩ := whole
    obtain ⟨amount, stamp, later, rfl⟩ := changed_eq_ok_iff.mp computed
    obtain ⟨commits, fits, rfl⟩ := writeChange_eq_ok_iff.mp written
    have same : earning.id = id :=
      (Earning.id_of_ofRow read).trans (Table.find?_eq_some_iff.mp found).2
    subst same
    exact .intro executes commits found read amount (isStorable_iff.mp fits).2 later
  · intro whole
    obtain ⟨-, commits, found, read, amount, fits, later⟩ := whole
    have same := (Earning.id_of_ofRow read).trans (Table.find?_eq_some_iff.mp found).2
    subst same
    have low := (isAmount_iff.mp amount).1
    refine ⟨_, _, _, found, read, changed_eq_ok_iff.mpr ⟨amount, _, later, rfl⟩,
      writeChange_eq_ok_iff.mpr ⟨commits, isStorable_iff.mpr ⟨?_, fits⟩, rfl⟩, rfl⟩
    simp only [storedLow]
    omega

/-- Changing an amount succeeds exactly on a table where it can, and leaves that row
changed. -/
theorem session_changeStore_eq_ok_iff {env : Environment} {id : Int} {compute : Int → Int}
    {store left : Store} {made : Change} :
    session (changeStore env id compute) store = (left, .ok made) ↔
      ∃ before after, store = some before ∧ left = some after ∧
        Amends env id compute before made after := by
  rw [session_eq_ok_iff]
  unfold changeStore
  cases struck : strike env.injection .execute with
  | error fault =>
    simp only [Prod.mk.injEq, reduceCtorEq, and_false, false_iff]
    intro whole
    obtain ⟨before, after, -, -, ⟨executes⟩⟩ := whole
    rw [struck] at executes
    cases executes
  | ok _ =>
    cases store with
    | none => simp
    | some before =>
      refine ofTable_eq_ok_iff.trans ?_
      constructor
      · intro whole
        obtain ⟨after, rfl, done⟩ := whole
        exact ⟨before, after, rfl, rfl, (changeRow_eq_ok_iff struck).mp done⟩
      · intro whole
        obtain ⟨_, after, same, rfl, amends⟩ := whole
        cases same
        exact ⟨after, rfl, (changeRow_eq_ok_iff struck).mpr amends⟩

/-! ## Requests and sessions -/

/-- A checked operation that gave a result had an admitted request, and ended as the
operation behind the check did. -/
theorem afterCheck_of_ok {α β : Type} {store : Store} {checked : Audited α}
    {next : α → Written β} {b : β}
    (done : (afterCheck store checked next).audited.outcome = .ok b) :
    ∃ a, checked.outcome = .ok a ∧ (next a).audited.outcome = .ok b ∧
      (afterCheck store checked next).store = (next a).store := by
  unfold afterCheck at done ⊢
  cases admitted : checked.outcome with
  | error failure =>
    rw [admitted] at done
    cases done
  | ok a =>
    rw [admitted] at done
    exact ⟨a, rfl, done, rfl⟩

/-- A checked operation that failed was rejected, or failed behind its check. -/
theorem afterCheck_of_error {α β : Type} {store : Store} {checked : Audited α}
    {next : α → Written β} {failure : Failure}
    (failed : (afterCheck store checked next).audited.outcome = .error failure) :
    (checked.outcome = .error failure ∧ (afterCheck store checked next).store = store) ∨
      ∃ a, checked.outcome = .ok a ∧ (next a).audited.outcome = .error failure ∧
        (afterCheck store checked next).store = (next a).store := by
  unfold afterCheck at failed ⊢
  cases admitted : checked.outcome with
  | error trouble =>
    rw [admitted] at failed
    cases failed
    exact .inl ⟨rfl, rfl⟩
  | ok a =>
    rw [admitted] at failed
    exact .inr ⟨a, rfl, failed, rfl⟩

/-- A request that passed its check ends as the session behind it. -/
theorem outcome_afterCheck_of_ok {α β : Type} {store : Store} {checked : Audited α}
    {next : α → Written β} {a : α} (admitted : checked.outcome = .ok a) :
    (afterCheck store checked next).audited.outcome = (next a).audited.outcome := by
  unfold afterCheck
  rw [admitted]

/-- A stored draft is handed out under the identifier behind the largest. -/
theorem createDraft_of_ok {env : Environment} {store : Store} {draft : Draft}
    {earning : Earning}
    (done : (createDraft env store draft).audited.outcome = .ok earning) :
    ∃ before after, store = some before ∧
      (createDraft env store draft).store = some after ∧ Stores env [draft] before after ∧
      earning = Earning.ofDraft draft env.now (before.highest + 1) := by
  unfold createDraft at done ⊢
  split at done
  · rw [outcome_writeFault] at done
    cases done
  · next left rows stored =>
    obtain ⟨before, after, rfl, rfl, stores, rfl⟩ := session_storeDrafts_eq_ok_iff.mp stored
    rw [earningsOf_numbered] at done ⊢
    cases done
    exact ⟨before, after, rfl, rfl, stores, rfl⟩

/-- A draft that could not be stored leaves the store alone. -/
theorem createDraft_store_of_error {env : Environment} {store : Store} {draft : Draft}
    {failure : Failure}
    (failed : (createDraft env store draft).audited.outcome = .error failure) :
    (createDraft env store draft).store = store := by
  unfold createDraft at failed ⊢
  split at failed
  · next left fault refused =>
    exact kept_of_session refused
  · next left rows stored =>
    obtain ⟨before, after, rfl, rfl, stores, rfl⟩ := session_storeDrafts_eq_ok_iff.mp stored
    rw [earningsOf_numbered] at failed
    cases failed

/-- Stored drafts are handed out under the identifiers behind the largest; no draft is
stored in no session at all. -/
theorem createDrafts_of_ok {env : Environment} {store : Store} {drafts : List Draft}
    {earnings : List Earning}
    (done : (createDrafts env store drafts).audited.outcome = .ok earnings) :
    (drafts = [] ∧ earnings = [] ∧ (createDrafts env store drafts).store = store) ∨
      ∃ before after, drafts ≠ [] ∧ store = some before ∧
        (createDrafts env store drafts).store = some after ∧ Stores env drafts before after ∧
        earnings = earningsFrom env.now (before.highest + 1) drafts := by
  unfold createDrafts at done ⊢
  cases drafts with
  | nil =>
    cases done
    exact .inl ⟨rfl, rfl, rfl⟩
  | cons first rest =>
    simp only [List.isEmpty_cons, Bool.false_eq_true, if_false] at done ⊢
    split at done
    · rw [outcome_writeFault] at done
      cases done
    · next left rows stored =>
      obtain ⟨before, after, rfl, rfl, stores, rfl⟩ := session_storeDrafts_eq_ok_iff.mp stored
      rw [earningsOf_numbered] at done ⊢
      cases done
      exact .inr ⟨before, after, List.cons_ne_nil _ _, rfl, rfl, stores, rfl⟩

/-- Drafts that could not all be stored leave the store alone. -/
theorem createDrafts_store_of_error {env : Environment} {store : Store} {drafts : List Draft}
    {failure : Failure}
    (failed : (createDrafts env store drafts).audited.outcome = .error failure) :
    (createDrafts env store drafts).store = store := by
  unfold createDrafts at failed ⊢
  cases drafts with
  | nil => rfl
  | cons first rest =>
    simp only [List.isEmpty_cons, Bool.false_eq_true, if_false] at failed ⊢
    split at failed
    · next left fault refused =>
      exact kept_of_session refused
    · cases failed

theorem outcome_reportHalt (id : Int) (event message : String) (halt : Halt) :
    ∃ failure, (reportHalt id event message halt : Audited Earning).outcome = .error failure := by
  cases halt with
  | unknown => exact ⟨_, rfl⟩
  | outOfRange old new => exact ⟨_, rfl⟩
  | fault fault amount => exact ⟨_, outcome_writeFault ..⟩

/-- A change that was made is handed out as it was made. -/
theorem change_of_ok {env : Environment} {store : Store} {id : Int} {compute : Int → Int}
    {event message : String} {earning : Earning}
    (done : (change env store id compute event message).audited.outcome = .ok earning) :
    isKey id = true ∧ ∃ before after made, store = some before ∧
      (change env store id compute event message).store = some after ∧
      Amends env id compute before made after ∧ earning = made.earning := by
  unfold change at done ⊢
  cases key : isKey id with
  | false =>
    rw [key] at done
    cases done
  | true =>
    simp only [key, if_true] at done ⊢
    split at done
    · next left halt refused =>
      obtain ⟨failure, fails⟩ := outcome_reportHalt id event message halt
      rw [fails] at done
      cases done
    · next left made changed =>
      obtain ⟨before, after, rfl, rfl, amends⟩ := session_changeStore_eq_ok_iff.mp changed
      cases done
      exact ⟨trivial, before, after, made, rfl, rfl, amends, rfl⟩

/-- A change that was not made leaves the store alone. -/
theorem change_store_of_error {env : Environment} {store : Store} {id : Int}
    {compute : Int → Int} {event message : String} {failure : Failure}
    (failed : (change env store id compute event message).audited.outcome = .error failure) :
    (change env store id compute event message).store = store := by
  unfold change at failed ⊢
  cases key : isKey id with
  | false => rfl
  | true =>
    simp only [key, if_true] at failed ⊢
    split at failed
    · next left halt refused =>
      exact kept_of_session refused
    · cases failed

end Writing

end EarningsLedger
