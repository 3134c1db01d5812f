import EarningsLedger.Proofs.ComputedAmounts

/-!
# When an amount is reported out of range

A change that is refused over its amount carries that amount in its error.  The amount
ought to be one that cannot be stored: negative, or larger than a cell can hold.
`overflow_reported_iff` says exactly which changes are reported so, and over which amount.
It is as it ought to be with one exception: a row that was stamped with the last instant of
the calendar takes no change at all, because no stamp is left for it, and this too is
reported over the amount, however small that is.
-/

namespace EarningsLedger

open Calendar Storage Writing

/-- A call ended in the report that an amount is out of range. -/
def Reply.Overflows (reply : Reply) (carried : Value) : Prop :=
  ∃ words, reply.outcome = .error (.ledger (.overflow carried words))

namespace Writing

variable {env : Environment} {table : Table}

/-- **Which changes are reported over their amount**: those of a stored row that does not
take the computed amount. -/
theorem Ends.overflows_iff {id : Int} {compute : Int → Int} {outcome : Except Failure Earning}
    {left : Store} (ends : Ends env table id compute outcome left) (carried : Value) :
    (∃ words, outcome = .error (.ledger (.overflow carried words))) ↔
      isKey id = true ∧ ∃ row, table.find? id = some row ∧
        carried = .int (compute row.cells.amount) ∧ row.Declines (compute row.cells.amount) := by
  cases ends with
  | missing missing =>
    refine iff_of_false ?_ fun reported => ?_
    · simp [LedgerError.raised_eq_ledger_iff]
    · obtain ⟨key, row, found, -⟩ := reported
      simp [key, found] at missing
  | @declined row words key found declined =>
    constructor
    · intro reported
      obtain ⟨_, same⟩ := reported
      cases same
      exact ⟨key, row, found, rfl, declined⟩
    · intro reported
      obtain ⟨-, other, same, rfl, -⟩ := reported
      obtain rfl := Option.some.inj (found.symm.trans same)
      exact ⟨_, rfl⟩
  | changed key found takes amends =>
    refine iff_of_false (by simp) fun reported => ?_
    obtain ⟨-, other, same, -, declined⟩ := reported
    obtain rfl := Option.some.inj (found.symm.trans same)
    exact takes declined

end Writing

namespace Call

variable {env : Environment} {table : Table}

/-- A call that asks for a change is reported over its amount as the change is. -/
theorem overflows_of_asks {call : Call} {id : Int} {compute : Int → Int}
    (asks : call.Asks id compute) (calm : env.injection = none) (sound : table.Sound)
    (carried : Value) :
    (call.run env (some table)).Overflows carried ↔
      isKey id = true ∧ ∃ row, table.find? id = some row ∧
        carried = .int (compute row.cells.amount) ∧ row.Declines (compute row.cells.amount) := by
  obtain ⟨outcome, ended, ends⟩ := ends_of_asks asks calm sound
  rw [← ends.overflows_iff carried, Reply.Overflows, ended]
  simp only [map_eq_error_iff]

/-- A request that is refused over a number is reported over that number only, and over none
that has too many digits for a report. -/
theorem overflows_of_refused {call : Call} {store : Store} {n : Int}
    (refused : (call.run env store).outcome =
      .error (LedgerError.overflow (.int n) .null).raised)
    (carried : Value) :
    (call.run env store).Overflows carried ↔ carried = .int n ∧ Text.isShort n = true := by
  unfold Reply.Overflows
  rw [refused]
  simp only [Except.error.injEq, LedgerError.raised_eq_ledger_iff, LedgerError.isWorded_overflow,
    LedgerError.overflow.injEq]
  constructor
  · rintro ⟨words, short, rfl, -⟩
    exact ⟨rfl, short⟩
  · rintro ⟨rfl, short⟩
    exact ⟨.null, short, rfl, rfl⟩

/-- An amount that is set is reported when it is no amount, and when its row does not take
it. -/
theorem updateAmount_overflows_iff (calm : env.injection = none) (sound : table.Sound)
    (id amount : Int) (carried : Value) :
    ((updateAmount (.int id) (.int amount)).run env (some table)).Overflows carried ↔
      carried = .int amount ∧ (isAmount amount = false ∧ Text.isShort amount = true ∨
        isAmount amount = true ∧ isKey id = true ∧ ∃ row, table.find? id = some row ∧
          (storedHigh < amount ∨ row.AtCalendarEnd)) := by
  cases range : isAmount amount with
  | false =>
    rw [overflows_of_refused (outcome_updateAmount_of_outside range env (some table) id)]
    simp only [true_and, Bool.false_eq_true, false_and, or_false]
  | true =>
    have low := (isAmount_iff.mp range).1
    rw [overflows_of_asks (.update id ⟨amount, range⟩) calm sound]
    simp only [Row.Declines, Bool.true_eq_false, false_and, false_or, true_and]
    constructor
    · rintro ⟨key, row, found, carries, negative | declined⟩
      · omega
      · exact ⟨carries, key, row, found, declined⟩
    · rintro ⟨carries, key, row, found, declined⟩
      exact ⟨key, row, found, carries, .inr declined⟩

/-- A number that is added is reported when it is further from zero than any amount, and
otherwise the sum, when its row does not take it. -/
theorem addAmount_overflows_iff (calm : env.injection = none) (sound : table.Sound)
    (id delta : Int) (carried : Value) :
    ((addAmount (.int id) (.int delta)).run env (some table)).Overflows carried ↔
      (¬ (-amountHigh ≤ delta ∧ delta ≤ amountHigh) ∧ carried = .int delta ∧
        Text.isShort delta = true) ∨
      ((-amountHigh ≤ delta ∧ delta ≤ amountHigh) ∧ isKey id = true ∧
        ∃ row, table.find? id = some row ∧ carried = .int (row.cells.amount + delta) ∧
          row.Declines (row.cells.amount + delta)) := by
  by_cases inside : -amountHigh ≤ delta ∧ delta ≤ amountHigh
  · rw [overflows_of_asks (.add id delta inside.1 inside.2) calm sound]
    simp only [inside, and_self, not_true_eq_false, false_and, true_and, false_or]
  · rw [overflows_of_refused (outcome_addAmount_of_outside inside env (some table) id)]
    simp only [inside, not_false_eq_true, true_and, false_and, or_false]

end Call

/-- **When an amount is reported out of range.**  Behind any run, by any clock and where no
fault strikes: setting an amount is reported over just that amount, and that when it is no
amount and short enough for a report, or when its row is there and takes no change or the
amount fits no cell.  Adding to an amount is reported over what was to be added when that is
further from zero than any amount and short enough, and otherwise over the sum, when its row
does not take that.  So as long as its row was stamped before the last instant of the
calendar, a change is reported only over an amount that cannot be stored. -/
theorem overflow_reported_iff {env : Environment} (calm : env.injection = none)
    (trigger : Bool) (turns : List Turn) (id : Int) :
    ∃ before, storeAfter (freshStore trigger) turns = some before ∧
      (∀ (amount : Int) (carried : Value),
        ((Call.updateAmount (.int id) (.int amount)).run env (some before)).Overflows carried ↔
          carried = .int amount ∧ (isAmount amount = false ∧ Text.isShort amount = true ∨
            isAmount amount = true ∧ isKey id = true ∧ ∃ row, before.find? id = some row ∧
              (storedHigh < amount ∨ row.AtCalendarEnd))) ∧
      (∀ (delta : Int) (carried : Value),
        ((Call.addAmount (.int id) (.int delta)).run env (some before)).Overflows carried ↔
          (¬ (-amountHigh ≤ delta ∧ delta ≤ amountHigh) ∧ carried = .int delta ∧
            Text.isShort delta = true) ∨
          ((-amountHigh ≤ delta ∧ delta ≤ amountHigh) ∧ isKey id = true ∧
            ∃ row, before.find? id = some row ∧ carried = .int (row.cells.amount + delta) ∧
              row.Declines (row.cells.amount + delta))) ∧
      ((∀ row, before.find? id = some row → ¬ row.AtCalendarEnd) → ∀ asked carried : Int,
        ((Call.updateAmount (.int id) (.int asked)).run env (some before)).Overflows
            (.int carried) ∨
          ((Call.addAmount (.int id) (.int asked)).run env (some before)).Overflows
            (.int carried) →
        carried < 0 ∨ storedHigh < carried) := by
  obtain ⟨before, left, sound⟩ := sound_after trigger turns
  have sets := Call.updateAmount_overflows_iff calm sound id
  have adds := Call.addAmount_overflows_iff calm sound id
  refine ⟨before, left, sets, adds, ?_⟩
  rintro earlier asked carried (reported | reported)
  · obtain ⟨same, outside⟩ := (sets asked _).mp reported
    obtain rfl := Value.int.inj same
    rcases outside with ⟨outside, -⟩ | ⟨-, -, row, found, large | ends⟩
    · have bounds := isAmount_iff.not.mp (Bool.eq_false_iff.mp outside)
      simp only [amountHigh] at bounds
      simp only [storedHigh]
      omega
    · exact .inr large
    · exact absurd ends (earlier row found)
  · rcases (adds asked _).mp reported with ⟨outside, same, -⟩ | ⟨-, -, row, found, same, declined⟩
    · obtain rfl := Value.int.inj same
      simp only [amountHigh] at outside
      simp only [storedHigh]
      omega
    · obtain rfl := Value.int.inj same
      rcases declined with low | large | ends
      · exact .inl low
      · exact .inr large
      · exact absurd ends (earlier row found)

/-- Seven, set for a row that was stamped a second before the calendar ends: nothing is
reported.  2⁶³, set for the same row, is reported over itself. -/
theorem change_before_calendar_end_reported_over_size :
    let stamp : Instant := ⟨calendarMicros - 1000000, by decide⟩
    let env : Environment := .usual ⟨calendarMicros - 1, by decide⟩
    env.injection = none ∧
      ∃ before, storeAfter (freshStore true) (fiveOpened stamp) = some before ∧
        (∀ carried, ¬ ((Call.updateAmount (.int 1) (.int 7)).run env (some before)).Overflows
          carried) ∧
        ((Call.updateAmount (.int 1) (.int (storedHigh + 1))).run env (some before)).Overflows
          (.int (storedHigh + 1)) := by
  intro stamp env
  have calm : env.injection = none := rfl
  obtain ⟨before, left, sets, -⟩ := overflow_reported_iff calm true (fiveOpened stamp) 1
  have found := find?_of_fiveOpened left
  refine ⟨calm, before, left, fun carried reported => ?_, ?_⟩
  · rcases ((sets 7 carried).mp reported).2 with ⟨outside, -⟩ | ⟨-, -, row, same, large | ends⟩
    · cases outside
    · cases large
    · obtain rfl := Option.some.inj (found.symm.trans same)
      exact absurd (atCalendarEnd_fiveRow.mp ends) (by decide)
  · exact (sets _ _).mpr ⟨rfl, .inr ⟨rfl, rfl, fiveRow stamp, found, .inl (by decide)⟩⟩

/-- Not every amount that is reported out of range cannot be stored: seven is reported, set
for a row that was stamped with the last instant of the calendar. -/
theorem not_every_reported_amount_unstorable :
    ¬ ∀ (env : Environment) (trigger : Bool) (turns : List Turn) (id amount carried : Int),
      env.injection = none →
      ((Call.updateAmount (.int id) (.int amount)).run env
        (storeAfter (freshStore trigger) turns)).Overflows (.int carried) →
      carried < 0 ∨ storedHigh < carried := by
  intro every
  let last : Instant := ⟨calendarMicros - 1, by decide⟩
  obtain ⟨before, left, sound⟩ := sound_after false (fiveOpened last)
  have ends : (fiveRow last).AtCalendarEnd := atCalendarEnd_fiveRow.mpr rfl
  have small := every (.usual last) false (fiveOpened last) 1 7 7 rfl
  rw [left, Call.updateAmount_overflows_iff rfl sound] at small
  rcases small ⟨rfl, .inr ⟨rfl, rfl, fiveRow last, find?_of_fiveOpened left, .inr ends⟩⟩ with
    low | high
  · cases low
  · cases high

end EarningsLedger
