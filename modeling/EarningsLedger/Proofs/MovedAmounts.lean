import EarningsLedger.Proofs.ComputedAmounts
import EarningsLedger.Proofs.RowFrames

/-!
# Adding to an amount

An amount is changed by setting it or by adding to it.  The two look at a number that is out
of range in different places: a number that is set is checked before the row is read, a sum
only afterwards, by the operation, by the calendar or by the cell.  `adding_sets_the_sum`
says that a caller cannot tell: adding to an amount of a row and setting the sum for it end
alike, whichever of these refuses it.

`added_exactly_when_sum_fits` says when adding is answered, what it does then, and which of
the possible errors comes first when it is not.
-/

namespace EarningsLedger

open Calendar Storage Writing

/-! ## Replies that a caller cannot tell apart -/

/-- Two errors that a caller cannot tell apart. -/
structure LedgerError.Alike (first second : LedgerError) : Prop where
  kind : first.kind = second.kind
  message : first.message = second.message
  field : first.field? = second.field?
  amount : first.amount? = second.amount?
  id : first.id? = second.id?

namespace LedgerError

theorem Alike.refl (error : LedgerError) : error.Alike error := ⟨rfl, rfl, rfl, rfl, rfl⟩

/-- An amount out of range is reported in the words that are given for it. -/
theorem message_of_words {words : String} (given : words ≠ "") (carried : Value) :
    (overflow carried (.text words)).message = words := by
  have something : (Value.text words).isSomething = true := bne_iff_ne.mpr given
  rw [message, if_pos something]
  exact String.ofList_toList

/-- The words of its own that an amount out of range has may as well be given for it. -/
theorem alike_overflow (carried : Value) :
    (overflow carried (.text (overflow carried .null).message)).Alike (overflow carried .null) :=
  ⟨rfl, message_of_words (by simp [message, Value.isSomething, String.ext_iff]) carried, rfl, rfl,
    rfl⟩

end LedgerError

/-- Two replies to calls of one store are alike: the same answer with the same store left
behind, or errors that cannot be told apart with the store left alone. -/
inductive Reply.Alike (store : Store) (first second : Reply) : Prop
  | answered (answer : Answer) (one : first.outcome = .ok answer)
    (other : second.outcome = .ok answer) (left : first.store = second.store)
  | refused {error error' : LedgerError} (one : first.outcome = .error (.ledger error))
    (other : second.outcome = .error (.ledger error')) (alike : error.Alike error')
    (kept : first.store = store) (kept' : second.store = store)

namespace Call

variable {env : Environment} {table : Table} {id : Int}

/-- Calls that ask for the same amount are answered alike. -/
theorem alike_of_asks {call other : Call} {compute compute' : Int → Int}
    (asks : call.Asks id compute) (asks' : other.Asks id compute') (calm : env.injection = none)
    (sound : table.Sound) (key : isKey id = true) (same : ∀ row, table.find? id = some row →
      compute row.cells.amount = compute' row.cells.amount) :
    Reply.Alike (some table) (call.run env (some table)) (other.run env (some table)) := by
  obtain ⟨event, message, ended, left⟩ := run_of_asks asks env (some table)
  obtain ⟨event', message', ended', left'⟩ := run_of_asks asks' env (some table)
  obtain ⟨outcomes, stores⟩ := outcome_change_congr env sound same event message event' message'
  rw [outcomes, ← ended'] at ended
  rw [stores, ← left'] at left
  obtain ⟨outcome, known, ends⟩ := ends_of_asks asks' calm sound
  have kept : ∀ {error : LedgerError},
      (other.run env (some table)).outcome = .error (.ledger error) →
      Reply.Alike (some table) (call.run env (some table)) (other.run env (some table)) :=
    fun failed => .refused (ended.trans failed) failed (.refl _)
      (store_of_error (ended.trans failed)) (store_of_error failed)
  generalize (other.run env (some table)).store = after at ends
  cases ends with
  | missing missing =>
    rw [LedgerError.raised_notFound_of_key key] at known
    exact kept known
  | declined key found declined => exact kept known
  | changed key found takes amends => exact .answered _ (ended.trans known) known left

/-- A sum that is no amount is refused in the same way when it is computed and when it is
asked for. -/
theorem alike_of_outside {row : Row} {delta : Int} (calm : env.injection = none)
    (sound : table.Sound) (key : isKey id = true) (found : table.find? id = some row)
    (low : -amountHigh ≤ delta) (high : delta ≤ amountHigh)
    (outside : isAmount (row.cells.amount + delta) = false) :
    Reply.Alike (some table) ((addAmount (.int id) (.int delta)).run env (some table))
      ((updateAmount (.int id) (.int (row.cells.amount + delta))).run env (some table)) := by
  obtain ⟨event, message, ended, -⟩ := run_of_asks (.add id delta low high) env (some table)
  obtain ⟨-, updated, -, -, last⟩ := (sound.cells row (Table.find?_eq_some_iff.mp found).1).stamps
  have complains : complaint? updated (row.cells.amount + delta) =
      some (LedgerError.overflow (.int (row.cells.amount + delta)) .null).message :=
    if_pos outside
  rw [change_of_complaint calm sound key found last complains event message] at ended
  have refused := outcome_updateAmount_of_outside outside env (some table) id
  have bounds := (sound.cells row (Table.find?_eq_some_iff.mp found).1).amount
  simp only [storedHigh, amountHigh] at bounds low high
  have short : Text.isShort (row.cells.amount + delta) = true := isShort_of_small (by omega)
  rw [LedgerError.raised_of_worded ((LedgerError.isWorded_overflow _).trans short)] at refused
  exact .refused ended refused (LedgerError.alike_overflow _) (store_of_error ended)
    (store_of_error refused)

end Call

/-- **Adding sets the sum.**  Behind any run, by any clock and where no fault strikes: adding
to the amount of a row and setting the sum for that row, each from the same store, give the
same earning and leave the same store, or fail with errors that cannot be told apart and
leave the store alone. -/
theorem adding_sets_the_sum {env : Environment} (calm : env.injection = none) (trigger : Bool)
    (turns : List Turn) :
    ∃ before, storeAfter (freshStore trigger) turns = some before ∧
      ∀ row ∈ before.rows, isKey row.id = true →
        ∀ delta : Int, -amountHigh ≤ delta → delta ≤ amountHigh →
          Reply.Alike (some before)
            ((Call.addAmount (.int row.id) (.int delta)).run env (some before))
            ((Call.updateAmount (.int row.id) (.int (row.cells.amount + delta))).run env
              (some before)) := by
  obtain ⟨before, left, sound⟩ := sound_after trigger turns
  refine ⟨before, left, fun row held key delta low high => ?_⟩
  have found := Table.find?_eq_some_iff.mpr ⟨held, rfl⟩
  cases range : isAmount (row.cells.amount + delta) with
  | false => exact Call.alike_of_outside calm sound key found low high range
  | true =>
    refine Call.alike_of_asks (.add row.id delta low high) (.update row.id ⟨_, range⟩) calm sound
      key fun other same => ?_
    obtain rfl := Option.some.inj (found.symm.trans same)
    rfl

/-- Ten taken from five, and minus five set: both are refused, and a caller cannot tell which
was asked for. -/
theorem overdrawn_five_is_minus_five :
    let now : Instant := ⟨0, by decide⟩
    let env : Environment := .usual now
    env.injection = none ∧
      ∃ before, storeAfter (freshStore true) (fiveOpened now) = some before ∧
        Reply.Alike (some before) ((Call.addAmount (.int 1) (.int (-10))).run env (some before))
          ((Call.updateAmount (.int 1) (.int (-5))).run env (some before)) := by
  intro now env
  have calm : env.injection = none := rfl
  obtain ⟨before, left, alike⟩ := adding_sets_the_sum calm true (fiveOpened now)
  have held := (Table.find?_eq_some_iff.mp (find?_of_fiveOpened left)).1
  exact ⟨calm, before, left, alike (fiveRow now) held rfl (-10) (by decide) (by decide)⟩

/-! ## When adding is answered -/

/-- A row that was not stamped with the last instant of the calendar takes every amount that
fits its cell. -/
theorem Storage.Row.declines_iff_of_early {row : Row} (early : ¬ row.AtCalendarEnd) {new : Int} :
    row.Declines new ↔ ¬ (0 ≤ new ∧ new ≤ storedHigh) := by
  unfold Declines
  constructor
  · rintro (low | large | ends) ⟨positive, fits⟩
    · omega
    · omega
    · exact early ends
  · intro outside
    by_cases low : new < 0
    · exact .inl low
    · exact .inr (.inl (by omega))

/-- A row was given a new amount: its stamp became the later one of the present and of the
instant behind the stamp it had, it was handed out as it is now, and the other rows were left
alone. -/
def Storage.Row.Given (row : Row) (new : Int) (now : Instant) (before after : Table)
    (earning : Earning) : Prop :=
  ∃ updated stamp : Instant, row.cells.updated = updated.storedText ∧
    stamp.micros = max now.micros (updated.micros + 1) ∧
    Earning.ofRow (row.restamped new stamp) = .ok earning ∧
    after.rows = before.rows.map fun other =>
      if other.id = row.id then row.restamped new stamp else other

/-- A change that is made gives its row the computed amount. -/
theorem Writing.Amends.given {env : Environment} {before after : Table} {id : Int}
    {compute : Int → Int} {made : Change} {row : Row}
    (amends : Amends env id compute before made after) (sound : before.Sound)
    (found : before.find? id = some row) :
    row.Given (compute row.cells.amount) env.now before after made.earning := by
  obtain ⟨same, created, updated, stamp, ⟨held, rfl⟩, ⟨first, last⟩, -, rfl, rows, -⟩ :=
    sound.of_amends amends
  obtain rfl := Option.some.inj ((Table.find?_eq_some_iff.mpr ⟨held, rfl⟩).symm.trans found)
  exact ⟨updated, stamp, last, micros_of_amends amends sound found last,
    Earning.ofRow_restamped first _ _, rows⟩

namespace Writing.Ends

variable {env : Environment} {table : Table} {id : Int} {compute : Int → Int} {left : Store}

/-- A change is made exactly when its row is there and the computed amount fits a cell, as
long as no row was stamped with the last instant. -/
theorem ok_iff_of_early {outcome : Except Failure Earning}
    (ends : Ends env table id compute outcome left)
    (early : ∀ row ∈ table.rows, ¬ row.AtCalendarEnd) :
    (∃ earning, outcome = .ok earning) ↔ isKey id = true ∧ ∃ row, table.find? id = some row ∧
      0 ≤ compute row.cells.amount ∧ compute row.cells.amount ≤ storedHigh := by
  have held : ∀ {row}, table.find? id = some row → ¬ row.AtCalendarEnd := fun found =>
    early _ (Table.find?_eq_some_iff.mp found).1
  cases ends with
  | missing missing =>
    refine iff_of_false (by simp) fun taken => ?_
    obtain ⟨key, row, found, -⟩ := taken
    simp [key, found] at missing
  | declined key found declined =>
    refine iff_of_false (by simp) fun taken => ?_
    obtain ⟨-, other, same, fits⟩ := taken
    obtain rfl := Option.some.inj (found.symm.trans same)
    exact (Row.declines_iff_of_early (held found)).mp declined fits
  | @changed row made after key found takes amends =>
    rw [Row.declines_iff_of_early (held found), not_not] at takes
    exact iff_of_true ⟨_, rfl⟩ ⟨key, row, found, takes⟩

/-- What a change that is made does. -/
theorem given_of_ok {earning : Earning} (ends : Ends env table id compute (.ok earning) left)
    (sound : table.Sound) :
    ∃ row after, table.find? id = some row ∧ left = some after ∧
      row.Given (compute row.cells.amount) env.now table after earning := by
  cases ends with
  | @changed row made after key found takes amends =>
    exact ⟨row, after, found, rfl, amends.given sound found⟩

/-- What is reported of a change that is not made. -/
theorem error_cases {failure : Failure} (ends : Ends env table id compute (.error failure) left) :
    ((isKey id = false ∨ table.find? id = none) ∧
      failure = (LedgerError.notFound (.int id)).raised) ∨
    (isKey id = true ∧ ∃ row words, table.find? id = some row ∧
      failure = .ledger (.overflow (.int (compute row.cells.amount)) words)) := by
  cases ends with
  | missing missing => exact .inl ⟨missing, rfl⟩
  | declined key found declined => exact .inr ⟨key, _, _, found, rfl⟩

end Writing.Ends

/-- **Exactly when adding is answered, and what it does.**  Behind any run that left no row
with the last stamp of the calendar, by any clock and where no fault strikes: a number is
added to the amount of a row exactly when it is a difference of amounts, the identifier is
one that a row can have and has, and the sum fits a cell.  The row then has just that sum,
and the later one of the present and of the instant behind its stamp.  Otherwise the store is
left alone and the first of these that fails is what is reported, as long as a text can show
the number or the identifier that is refused. -/
theorem added_exactly_when_sum_fits {env : Environment} (calm : env.injection = none)
    (trigger : Bool) (turns : List Turn) :
    ∃ before, storeAfter (freshStore trigger) turns = some before ∧
      ((∀ row ∈ before.rows, ¬ row.AtCalendarEnd) → ∀ id delta : Int,
        let inside := -amountHigh ≤ delta ∧ delta ≤ amountHigh
        let reply := (Call.addAmount (.int id) (.int delta)).run env (some before)
        ((∃ answer, reply.outcome = .ok answer) ↔
          inside ∧ isKey id = true ∧ ∃ row, before.find? id = some row ∧
            0 ≤ row.cells.amount + delta ∧ row.cells.amount + delta ≤ storedHigh) ∧
        (∀ answer, reply.outcome = .ok answer →
          ∃ row earning after, before.find? id = some row ∧ answer = .earning earning ∧
            reply.store = some after ∧
            row.Given (row.cells.amount + delta) env.now before after earning) ∧
        (∀ failure, reply.outcome = .error failure → reply.store = some before ∧
          ((¬ inside ∧
            (Text.isShort delta = true → failure = .ledger (.overflow (.int delta) .null))) ∨
          (inside ∧ (isKey id = false ∨ before.find? id = none) ∧
            (Text.isShort id = true → failure = .ledger (.notFound (.int id)))) ∨
          (inside ∧ isKey id = true ∧ ∃ row words, before.find? id = some row ∧
            failure = .ledger (.overflow (.int (row.cells.amount + delta)) words))))) := by
  obtain ⟨before, left, sound⟩ := sound_after trigger turns
  refine ⟨before, left, fun early id delta => ?_⟩
  intro inside reply
  by_cases within : inside
  · obtain ⟨outcome, ended, ends⟩ := Call.ends_of_asks (.add id delta within.1 within.2) calm sound
    have made := ends.ok_iff_of_early early
    refine ⟨?_, ?_, ?_⟩
    · rw [show reply.outcome = _ from ended]
      simp only [map_eq_ok_iff, within, true_and, ← made]
      constructor
      · intro answered
        obtain ⟨_, earning, same, -⟩ := answered
        exact ⟨earning, same⟩
      · intro answered
        obtain ⟨earning, same⟩ := answered
        exact ⟨_, earning, same, rfl⟩
    · intro answer done
      obtain ⟨earning, rfl, rfl⟩ := map_eq_ok_iff.mp (ended.symm.trans done)
      obtain ⟨row, after, found, stored, given⟩ := ends.given_of_ok sound
      exact ⟨row, earning, after, found, rfl, stored, given⟩
    · intro failure failed
      obtain rfl := map_eq_error_iff.mp (ended.symm.trans failed)
      refine ⟨Call.store_of_error failed, .inr ?_⟩
      rcases ends.error_cases with ⟨missing, rfl⟩ | ⟨key, row, words, found, rfl⟩
      · refine .inl ⟨within, missing, fun short => ?_⟩
        exact LedgerError.raised_of_worded ((LedgerError.isWorded_notFound id).trans short)
      · exact .inr ⟨within, key, row, words, found, rfl⟩
  · have refused := Call.outcome_addAmount_of_outside within env (some before) id
    refine ⟨?_, ?_, ?_⟩
    · rw [show reply.outcome = _ from refused]
      exact iff_of_false (by simp) fun holds => within holds.1
    · intro answer done
      cases refused.symm.trans done
    · intro failure failed
      obtain rfl := Except.error.inj (refused.symm.trans failed)
      refine ⟨Call.store_of_error refused, .inl ⟨within, fun short => ?_⟩⟩
      exact LedgerError.raised_of_worded ((LedgerError.isWorded_overflow delta).trans short)

/-- Two is added to five; ten is not taken from it. -/
theorem five_takes_two_more :
    let now : Instant := ⟨0, by decide⟩
    let env : Environment := .usual now
    env.injection = none ∧
      ∃ before, storeAfter (freshStore true) (fiveOpened now) = some before ∧
        (∀ row ∈ before.rows, ¬ row.AtCalendarEnd) ∧
        (∃ answer, ((Call.addAmount (.int 1) (.int 2)).run env (some before)).outcome =
          .ok answer) ∧
        ¬ ∃ answer, ((Call.addAmount (.int 1) (.int (-10))).run env (some before)).outcome =
          .ok answer := by
  intro now env
  have calm : env.injection = none := rfl
  obtain ⟨before, left, adds⟩ := added_exactly_when_sum_fits calm true (fiveOpened now)
  have found := find?_of_fiveOpened left
  have early : ∀ row ∈ before.rows, ¬ row.AtCalendarEnd := by
    rw [rows_of_fiveOpened left, List.forall_mem_singleton, atCalendarEnd_fiveRow]
    decide
  refine ⟨calm, before, left, early, ?_, fun answered => ?_⟩
  · exact (adds early 1 2).1.mpr ⟨by decide, rfl, fiveRow now, found, by decide, by decide⟩
  · obtain ⟨-, -, row, same, low, -⟩ := (adds early 1 (-10)).1.mp answered
    obtain rfl := Option.some.inj (found.symm.trans same)
    cases low

/-- Not everything that is refused is reported over what was to be added or over the
identifier.  A truth value is no identifier, although it may be read as a number; and about
numbers that are too long for a text no error can be made at all. -/
theorem flags_and_long_numbers_reported_otherwise :
    let now : Instant := ⟨0, by decide⟩
    let env : Environment := .usual now
    let adds (id delta : Value) : Except Failure Answer :=
      ((Call.addAmount id delta).run env (storeAfter (freshStore true) (fiveOpened now))).outcome
    adds (.bool true) (.int 2) =
        .error (.ledger (.invalid (.idKind "bool") (.text "id"))) ∧
      adds (.int 1) (.int Text.leastLong) = .error (.fault .tooManyDigits) ∧
      adds (.int Text.leastLong) (.int 2) = .error (.fault .tooManyDigits) := by
  intro now env adds
  have long := Text.isShort_leastLong
  refine ⟨rfl, ?_, ?_⟩
  · have outside : ¬ (-amountHigh ≤ Text.leastLong ∧ Text.leastLong ≤ amountHigh) :=
      fun within => Bool.eq_false_iff.mp long (isShort_of_within within.1 within.2)
    have refused := Call.outcome_addAmount_of_outside outside env
      (storeAfter (freshStore true) (fiveOpened now)) 1
    rw [LedgerError.raised_of_unworded ((LedgerError.isWorded_overflow _).trans long)] at refused
    exact refused
  · have beyond : isKey Text.leastLong = false :=
      Bool.eq_false_iff.mpr fun key => Bool.eq_false_iff.mp long (isShort_of_isKey key)
    have missed := Call.outcome_of_asks_of_no_key
      (.add Text.leastLong 2 (by decide) (by decide)) beyond env
      (storeAfter (freshStore true) (fiveOpened now))
    rw [LedgerError.raised_of_unworded ((LedgerError.isWorded_notFound _).trans long)] at missed
    exact missed

end EarningsLedger
