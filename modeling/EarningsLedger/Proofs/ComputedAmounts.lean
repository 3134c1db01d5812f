import EarningsLedger.Proofs.SoundTables

/-!
# What becomes of a computed amount

A change computes a new amount for a row, and three things may keep it from being written:
it is out of the range of amounts, no stamp is left behind the one of the row, or it fits
no cell.  `Writing.complaint?` tells them apart in the order in which they are noticed.
Where no fault strikes these are all the ways in which the change of a stored row fails, and
each is reported over the computed amount.  `Writing.Ends` lists how a change ends, and
`Writing.change_ends` and `Call.ends_of_asks` say that this list is complete, so later proofs
split on it and do not open the operation again.

What a change computes with decides nothing but the new amount, so two changes that compute
the same amount end alike: `Writing.outcome_change_congr`.
-/

namespace EarningsLedger

open Calendar Check Storage Writing

/-! ## The end of the calendar -/

/-- A row that was stamped with the last instant of the calendar. -/
def Storage.Row.AtCalendarEnd (row : Row) : Prop :=
  ∃ last : Instant, row.cells.updated = last.storedText ∧ last.IsLast

/-- The text of a stamp tells whether it is the last one. -/
theorem Storage.Row.atCalendarEnd_iff {row : Row} {updated : Instant}
    (stamp : row.cells.updated = updated.storedText) : row.AtCalendarEnd ↔ updated.IsLast := by
  constructor
  · rintro ⟨last, same, ends⟩
    obtain rfl := Instant.storedText_injective (same.symm.trans stamp)
    exact ends
  · exact fun ends => ⟨updated, stamp, ends⟩

/-- An amount that a row does not take: it is negative or fits no cell, or the row takes no
change at all. -/
def Storage.Row.Declines (row : Row) (new : Int) : Prop :=
  new < 0 ∨ storedHigh < new ∨ row.AtCalendarEnd

/-! ## Numbers out of their range -/

namespace Check

/-- An integer that is no amount fails over its range. -/
theorem amount_of_outside {n : Int} (outside : isAmount n = false) :
    ∃ cause : Cause, cause.isRange = true ∧ amount (.int n) = .fail cause (.int n) := by
  have plain : ¬ isAmount n = true := Bool.eq_false_iff.mp outside
  by_cases low : n < 0
  · exact ⟨.below 0, rfl, by simp [amount, strictInt, plain, low]⟩
  · exact ⟨.above amountHigh, rfl, by simp [amount, strictInt, plain, low]⟩

/-- An integer that is further from zero than any amount fails over its range. -/
theorem delta_of_outside {n : Int} (outside : ¬ (-amountHigh ≤ n ∧ n ≤ amountHigh)) :
    ∃ cause : Cause, cause.isRange = true ∧ delta (.int n) = .fail cause (.int n) := by
  by_cases high : amountHigh < n
  · exact ⟨.above amountHigh, rfl, by
      simp [delta, bounded, inRange, strictInt, high, Option.filter]⟩
  · have low : n < -amountHigh := by omega
    exact ⟨.below (-amountHigh), rfl, by
      simp [delta, bounded, inRange, strictInt, high, low, Option.filter]⟩

/-- A field whose value fails is named in the issue. -/
theorem required_of_fail {α : Type} {fields : Fields} {name : String} {rule : Rule α}
    {cause : Cause} {input : Value} (held : fields.get? name = some input)
    (fails : rule input = .fail cause input) :
    required fields name rule = .error [⟨[.name name], cause, input⟩] := by
  unfold required field
  rw [held]
  dsimp only
  rw [fails]
  rfl

end Check

/-! ## Requests for a change -/

namespace Writing

variable {α : Type} {check : Fields → Verdict α} {named : Fields} {event : String} {id : Int}

/-- A number out of its range, in a place for amounts, ends the request for a change. -/
theorem outcome_admitChange_of_range {name : String} {cause : Cause} {n : Int}
    (fits : ∃ bound, checkSignature.bind [.null, .null] named = .ok bound)
    (refused : check named = .error [⟨[.name name], cause, .int n⟩])
    (range : (⟨[.name name], cause, .int n⟩ : Issue).isAmountRange = true) :
    (admitChange (.int id) check named event).outcome =
      .error (LedgerError.overflow (.int n) .null).raised := by
  obtain ⟨bound, fits⟩ := fits
  have blamed : errorOfIssues [⟨[.name name], cause, .int n⟩] = .overflow (.int n) .null := by
    simp only [errorOfIssues, List.find?_cons, range]
  refine (Audited.outcome_bind_of_ok rfl).trans (Audited.outcome_bind_of_error ?_)
  exact outcome_approve_eq_error_iff.mpr (.inr ⟨bound, _, fits, refused, by rw [blamed]⟩)

end Writing

namespace Call

/-- A call that asks for a change ends as the change does. -/
theorem run_of_asks {call : Call} {id : Int} {compute : Int → Int} (asks : call.Asks id compute)
    (env : Environment) (store : Store) :
    ∃ event message,
      (call.run env store).outcome =
        (change env store id compute event message).audited.outcome.map .earning ∧
      (call.run env store).store = (change env store id compute event message).store := by
  cases asks with
  | update _ amount =>
    have passed := checkAmount_eq_ok_iff.mpr (rfl : Value.int amount.val = .int amount.val)
    exact ⟨_, _, writing_of_admitted (outcome_admitChange_of_ok ⟨_, rfl⟩ passed)⟩
  | add _ delta low high =>
    have passed := checkDelta_eq_ok_iff.mpr ⟨(rfl : Value.int delta = .int delta), low, high⟩
    exact ⟨_, _, writing_of_admitted (outcome_admitChange_of_ok ⟨_, rfl⟩ passed)⟩

/-- Under a number that is no key nothing is changed, whatever the store holds. -/
theorem outcome_of_asks_of_no_key {call : Call} {id : Int} {compute : Int → Int}
    (asks : call.Asks id compute) (beyond : isKey id = false) (env : Environment) (store : Store) :
    (call.run env store).outcome = .error (LedgerError.notFound (.int id)).raised := by
  obtain ⟨event, message, ended, -⟩ := run_of_asks asks env store
  rw [ended, change, if_neg (Bool.eq_false_iff.mp beyond)]
  rfl

/-- An integer that is no amount cannot be set. -/
theorem outcome_updateAmount_of_outside {amount : Int} (outside : isAmount amount = false)
    (env : Environment) (store : Store) (id : Int) :
    ((updateAmount (.int id) (.int amount)).run env store).outcome =
      .error (LedgerError.overflow (.int amount) .null).raised := by
  obtain ⟨cause, range, fails⟩ := amount_of_outside outside
  apply writing_of_refused
  exact outcome_admitChange_of_range ⟨_, rfl⟩ (required_of_fail rfl fails)
    (by simp [Issue.isAmountRange, range])

/-- An integer that is further from zero than any amount cannot be added. -/
theorem outcome_addAmount_of_outside {delta : Int}
    (outside : ¬ (-amountHigh ≤ delta ∧ delta ≤ amountHigh)) (env : Environment) (store : Store)
    (id : Int) :
    ((addAmount (.int id) (.int delta)).run env store).outcome =
      .error (LedgerError.overflow (.int delta) .null).raised := by
  obtain ⟨cause, range, fails⟩ := delta_of_outside outside
  apply writing_of_refused
  exact outcome_admitChange_of_range ⟨_, rfl⟩ (required_of_fail rfl fails)
    (by simp [Issue.isAmountRange, range])

end Call

/-! ## Changes of a stored row -/

namespace Writing

variable {env : Environment} {table : Table} {id : Int} {row : Row} {updated : Instant}
  {compute : Int → Int}

/-- What is said of an amount that is not written to a row with the given stamp: it is no
amount, no stamp is left behind the row's, or it fits no cell.  Nothing is said of an amount
that is written. -/
def complaint? (updated : Instant) (new : Int) : Option String :=
  if isAmount new = false then some (LedgerError.overflow (.int new) .null).message
  else if updated.IsLast then some Fault.badDate.detail
  else if storedHigh < new then some Fault.tooLarge.detail
  else none

/-- An amount is written unless it is negative or fits no cell, or the calendar ends. -/
theorem complaint?_eq_none_iff {new : Int} :
    complaint? updated new = none ↔ 0 ≤ new ∧ new ≤ storedHigh ∧ ¬ updated.IsLast := by
  have bounds := isAmount_iff (n := new)
  simp only [amountHigh] at bounds
  unfold complaint?
  simp only [storedHigh]
  cases range : isAmount new with
  | false =>
    simp only [range, Bool.false_eq_true, false_iff] at bounds
    simp only [if_true, reduceCtorEq, false_iff]
    omega
  | true =>
    have bounds := bounds.mp range
    by_cases ends : updated.IsLast
    · simp [ends]
    · by_cases large : 9223372036854775807 < new
      · simp only [Bool.true_eq_false, if_false, ends, large, if_true, reduceCtorEq, false_iff]
        omega
      · simp only [Bool.true_eq_false, if_false, ends, large, true_iff]
        exact ⟨bounds.1, by omega, not_false⟩

/-- Something is said of the amounts that a row does not take. -/
theorem exists_complaint_iff (stamp : row.cells.updated = updated.storedText) (new : Int) :
    (∃ words, complaint? updated new = some words) ↔ row.Declines new := by
  rw [← Option.ne_none_iff_exists', Ne, complaint?_eq_none_iff, Row.Declines,
    Row.atCalendarEnd_iff stamp]
  constructor
  · intro some
    by_cases ends : updated.IsLast
    · exact .inr (.inr ends)
    · by_cases low : new < 0
      · exact .inl low
      · refine .inr (.inl ?_)
        by_contra small
        exact some ⟨by omega, by omega, ends⟩
  · rintro (low | large | ends) ⟨positive, fits, more⟩
    · omega
    · omega
    · exact more ends

/-- What a change is halted for, in a table that is left alone, and how it is reported. -/
theorem changeRow_of_complaint (commits : strike env.injection .commit = .ok ())
    (sound : table.Sound) (found : table.find? id = some row)
    (last : row.cells.updated = updated.storedText) {words : String}
    (complains : complaint? updated (compute row.cells.amount) = some words) :
    ∃ halt, changeRow env id compute table = (table, .error halt) ∧
      ∀ event message, (reportHalt id event message halt : Audited Earning).outcome =
        .error (.ledger (.overflow (.int (compute row.cells.amount)) (.text words))) := by
  obtain ⟨created, -, -, first, -⟩ := (sound.cells row (Table.find?_eq_some_iff.mp found).1).stamps
  have read := Earning.ofRow_eq_ok first last
  unfold complaint? at complains
  unfold changeRow
  simp only [found, read, changed]
  cases range : isAmount (compute row.cells.amount) with
  | false =>
    rw [if_pos range] at complains
    obtain rfl := Option.some.inj complains
    exact ⟨_, rfl, fun event message => rfl⟩
  | true =>
    simp only [range, Bool.true_eq_false, if_false] at complains
    by_cases ends : updated.IsLast
    · rw [if_pos ends] at complains
      obtain rfl := Option.some.inj complains
      simp only [nextStamp?_eq_none_iff.mpr ends]
      exact ⟨_, rfl, fun event message => outcome_writeFault ..⟩
    · rw [if_neg ends] at complains
      have large : storedHigh < compute row.cells.amount := by
        by_contra small
        rw [if_neg small] at complains
        cases complains
      rw [if_pos large] at complains
      obtain rfl := Option.some.inj complains
      obtain ⟨stamp, later⟩ := Option.ne_none_iff_exists'.mp
        (fun none => ends (nextStamp?_eq_none_iff.mp none) :
          nextStamp? env.now (some (.plain updated)) ≠ none)
      have unfit : isStorable (compute row.cells.amount) = false := by
        rw [Bool.eq_false_iff]
        intro fits
        have high := (isStorable_iff.mp fits).2
        omega
      simp only [later, writeChange, commits, unfit, Bool.not_true, Bool.false_eq_true, if_false]
      exact ⟨_, rfl, fun event message => outcome_writeFault ..⟩

/-- **A change over which something is said**: it is reported with the computed amount. -/
theorem change_of_complaint (calm : env.injection = none) (sound : table.Sound)
    (key : isKey id = true) (found : table.find? id = some row)
    (last : row.cells.updated = updated.storedText) {words : String}
    (complains : complaint? updated (compute row.cells.amount) = some words)
    (event message : String) :
    (change env (some table) id compute event message).audited.outcome =
      .error (.ledger (.overflow (.int (compute row.cells.amount)) (.text words))) := by
  have calmly := strike_of_calm calm
  obtain ⟨halt, halted, reported⟩ :=
    changeRow_of_complaint (calmly .commit) sound found last complains
  have ended : session (changeStore env id compute) (some table) = (some table, .error halt) := by
    simp only [session, changeStore, calmly .execute, halted]
  unfold change
  rw [if_pos key, ended]
  exact reported event message

/-- **A change over which nothing is said**: it is made. -/
theorem change_of_no_complaint (calm : env.injection = none) (sound : table.Sound)
    (key : isKey id = true) (found : table.find? id = some row)
    (last : row.cells.updated = updated.storedText)
    (accepts : complaint? updated (compute row.cells.amount) = none) (event message : String) :
    ∃ made after, (change env (some table) id compute event message).audited.outcome =
        .ok made.earning ∧
      (change env (some table) id compute event message).store = some after ∧
      Amends env id compute table made after := by
  have calmly := strike_of_calm calm
  obtain ⟨created, -, -, first, -⟩ := (sound.cells row (Table.find?_eq_some_iff.mp found).1).stamps
  obtain ⟨low, fits, more⟩ := complaint?_eq_none_iff.mp accepts
  have amount : isAmount (compute row.cells.amount) = true := by
    refine isAmount_iff.mpr ⟨low, ?_⟩
    simp only [storedHigh] at fits
    simp only [amountHigh]
    omega
  obtain ⟨stamp, later⟩ := Option.ne_none_iff_exists'.mp
    (fun none => more (nextStamp?_eq_none_iff.mp none) :
      nextStamp? env.now (some (.plain updated)) ≠ none)
  have amends := Amends.intro (calmly .execute) (calmly .commit) found
    (Earning.ofRow_eq_ok first last) amount fits later
  have ended := session_changeStore_eq_ok_iff.mpr ⟨table, _, rfl, rfl, amends⟩
  refine ⟨_, _, ?_, ?_, amends⟩
  · unfold change
    rw [if_pos key, ended]
    rfl
  · unfold change
    rw [if_pos key, ended]

/-- A change of a row that is not there finds no earning. -/
theorem change_of_missing (calm : env.injection = none)
    (missing : isKey id = false ∨ table.find? id = none) (compute : Int → Int)
    (event message : String) :
    (change env (some table) id compute event message).audited.outcome =
      .error (LedgerError.notFound (.int id)).raised := by
  unfold change
  cases key : isKey id with
  | false => rfl
  | true =>
    have none : table.find? id = none := by simpa [key] using missing
    have ended : session (changeStore env id compute) (some table) =
        (some table, .error .unknown) := by
      simp only [session, changeStore, strike_of_calm calm .execute, changeRow, none]
    rw [if_pos rfl, ended]
    rfl

/-- How the change of an amount ends where no fault strikes: its row is not there, or does
not take the computed amount, or is changed. -/
inductive Ends (env : Environment) (table : Table) (id : Int) (compute : Int → Int) :
    Except Failure Earning → Store → Prop
  | missing (missing : isKey id = false ∨ table.find? id = none) :
    Ends env table id compute (.error (LedgerError.notFound (.int id)).raised) (some table)
  | declined {row : Row} {words : String} (key : isKey id = true)
    (found : table.find? id = some row) (declined : row.Declines (compute row.cells.amount)) :
    Ends env table id compute
      (.error (.ledger (.overflow (.int (compute row.cells.amount)) (.text words)))) (some table)
  | changed {row : Row} {made : Change} {after : Table} (key : isKey id = true)
    (found : table.find? id = some row) (takes : ¬ row.Declines (compute row.cells.amount))
    (amends : Amends env id compute table made after) :
    Ends env table id compute (.ok made.earning) (some after)

/-- **How a change ends.** -/
theorem change_ends (calm : env.injection = none) (sound : table.Sound) (id : Int)
    (compute : Int → Int) (event message : String) :
    Ends env table id compute (change env (some table) id compute event message).audited.outcome
      (change env (some table) id compute event message).store := by
  by_cases missing : isKey id = false ∨ table.find? id = none
  · have ended := change_of_missing calm missing compute event message
    rw [ended, change_store_of_error ended]
    exact .missing missing
  · rw [not_or, Bool.not_eq_false] at missing
    obtain ⟨key, there⟩ := missing
    obtain ⟨row, found⟩ := Option.ne_none_iff_exists'.mp there
    obtain ⟨-, updated, -, -, last⟩ :=
      (sound.cells row (Table.find?_eq_some_iff.mp found).1).stamps
    have told := exists_complaint_iff last (compute row.cells.amount)
    cases said : complaint? updated (compute row.cells.amount) with
    | some words =>
      have ended := change_of_complaint calm sound key found last said event message
      rw [ended, change_store_of_error ended]
      exact .declined key found (told.mp ⟨words, said⟩)
    | none =>
      obtain ⟨made, after, ended, left, amends⟩ :=
        change_of_no_complaint calm sound key found last said event message
      rw [ended, left]
      refine .changed key found (fun declined => ?_) amends
      obtain ⟨words, some⟩ := told.mpr declined
      cases said.symm.trans some

/-- A change that is made moves the stamp of its row to the later one of the present and of
the instant behind the stamp it had. -/
theorem micros_of_amends {made : Change} {after : Table}
    (amends : Amends env id compute table made after) (sound : table.Sound)
    (found : table.find? id = some row) (last : row.cells.updated = updated.storedText) :
    made.earning.updated.reading.micros = max env.now.micros (updated.micros + 1) := by
  obtain ⟨-, -, same, read, -, -, later⟩ := amends
  obtain rfl := Option.some.inj (same.symm.trans found)
  obtain ⟨created, -, -, first, -⟩ := (sound.cells _ (Table.find?_eq_some_iff.mp found).1).stamps
  obtain rfl := Except.ok.inj ((Earning.ofRow_eq_ok first last).symm.trans read)
  exact micros_of_nextStamp? later

/-! ## What a change computes with -/

/-- Two ways to compute the same amount from that of the row make the same change. -/
theorem changeRow_congr {other : Int → Int} (sound : table.Sound)
    (same : ∀ row, table.find? id = some row → compute row.cells.amount = other row.cells.amount) :
    changeRow env id compute table = changeRow env id other table := by
  unfold changeRow
  cases found : table.find? id with
  | none => rfl
  | some row =>
    obtain ⟨created, updated, -, first, last⟩ :=
      (sound.cells row (Table.find?_eq_some_iff.mp found).1).stamps
    simp only [Earning.ofRow_eq_ok first last, same row found]

/-- The failure that a halt is reported as does not depend on the words of the report. -/
theorem outcome_reportHalt_congr (id : Int) (event message event' message' : String)
    (halt : Halt) :
    (reportHalt id event message halt : Audited Earning).outcome =
      (reportHalt id event' message' halt : Audited Earning).outcome := by
  cases halt with
  | unknown => rfl
  | outOfRange old new => rfl
  | fault fault amount => exact (outcome_writeFault ..).trans (outcome_writeFault ..).symm

/-- **Changes that compute the same amount end alike**, whatever they are called. -/
theorem outcome_change_congr (env : Environment) {other : Int → Int} (sound : table.Sound)
    (same : ∀ row, table.find? id = some row → compute row.cells.amount = other row.cells.amount)
    (event message event' message' : String) :
    (change env (some table) id compute event message).audited.outcome =
        (change env (some table) id other event' message').audited.outcome ∧
      (change env (some table) id compute event message).store =
        (change env (some table) id other event' message').store := by
  have work : session (changeStore env id compute) (some table) =
      session (changeStore env id other) (some table) := by
    simp only [session, changeStore, changeRow_congr sound same]
  unfold change
  rw [work]
  cases isKey id with
  | false => exact ⟨rfl, rfl⟩
  | true =>
    simp only [if_true]
    rcases session (changeStore env id other) (some table) with ⟨left, halt | made⟩
    · exact ⟨outcome_reportHalt_congr .., rfl⟩
    · exact ⟨rfl, rfl⟩

end Writing

/-- **How a call for a change ends** where no fault strikes. -/
theorem Call.ends_of_asks {env : Environment} {table : Table} {call : Call} {id : Int}
    {compute : Int → Int} (asks : call.Asks id compute) (calm : env.injection = none)
    (sound : table.Sound) :
    ∃ outcome, (call.run env (some table)).outcome = outcome.map .earning ∧
      Ends env table id compute outcome (call.run env (some table)).store := by
  obtain ⟨event, message, ended, left⟩ := run_of_asks asks env (some table)
  exact ⟨_, ended, left ▸ change_ends calm sound id compute event message⟩

/-! ## A ledger with one earning -/

/-- A request for an earning of five. -/
def fiveAsked : Fields :=
  [("miner_id", .int 1), ("pool_id", .int 1), ("challenge_id", .int 1), ("amount", .int 5)]

/-- The row of an earning of five, the first one of its ledger. -/
def fiveRow (now : Instant) : Row :=
  ⟨1, Earning.cellsOf ⟨⟨1, rfl⟩, ⟨1, rfl⟩, ⟨1, rfl⟩, ⟨5, rfl⟩⟩ now⟩

/-- The run that opens an earning of five and nothing else. -/
def fiveOpened (now : Instant) : List Turn := [⟨.usual now, .create fiveAsked⟩]

/-- Behind that run the ledger holds that row and no other. -/
theorem rows_of_fiveOpened {trigger : Bool} {now : Instant} {before : Table}
    (left : storeAfter (freshStore trigger) (fiveOpened now) = some before) :
    before.rows = [fiveRow now] := by
  obtain rfl := Option.some.inj left
  rfl

theorem find?_of_fiveOpened {trigger : Bool} {now : Instant} {before : Table}
    (left : storeAfter (freshStore trigger) (fiveOpened now) = some before) :
    before.find? 1 = some (fiveRow now) := by
  refine Table.find?_eq_some_iff.mpr ⟨?_, rfl⟩
  rw [rows_of_fiveOpened left]
  exact List.mem_singleton.mpr rfl

theorem atCalendarEnd_fiveRow {now : Instant} : (fiveRow now).AtCalendarEnd ↔ now.IsLast :=
  Row.atCalendarEnd_iff rfl

end EarningsLedger
