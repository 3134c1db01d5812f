import EarningsLedger.Proofs.KnownEarnings
import EarningsLedger.Proofs.SoundReads

/-!
# The ledger is what its callers were told

The main result of this module is `reads_what_was_written`: behind every run the ledger
answers for an identifier exactly what the calls so far tell about it.  An identifier
that no answered call has given out is not found, by any of the four operations that
take one, and every other identifier is read as the earning that `known` folds from the
calls.

The earlier part says how these four operations end on a table, when no fault strikes.
-/

namespace EarningsLedger

open Calendar Storage Writing

variable {env : Environment} {table : Table} {id : Int}

/-! ## Reading an identifier -/

namespace Reading

/-- An identifier that callers may ask for is looked up. -/
theorem outcome_get_of_key (key : isKey id = true) {found : Option Earning} {store : Store}
    (looked : earningAt env store id = .ok found) :
    (get env store (.int id)).outcome = .ok found := by
  refine Audited.outcome_bind_eq_ok_iff.mpr ⟨id, rfl, ?_⟩
  rw [if_pos key]
  refine Audited.outcome_bind_eq_ok_iff.mpr ⟨found, ?_, rfl⟩
  rw [outcome_readOutcome, looked]
  rfl

end Reading

namespace Call

/-- What was looked up is handed out by both operations that read an identifier. -/
theorem outcome_get {found : Option Earning} {store : Store} {asked : Value}
    (looked : (Reading.get env store asked).outcome = .ok found) :
    ((get asked).run env store).outcome = .ok (found.elim .nothing .earning) ∧
    ((getOrFail asked).run env store).outcome =
      found.elim (.error (LedgerError.notFound asked).raised) fun earning =>
        .ok (.earning earning) := by
  constructor
  · refine (Audited.outcome_bind_of_ok looked).trans ?_
    cases found <;> rfl
  · refine (Audited.outcome_map _ _).trans ?_
    have ended : (Reading.getOrFail env store asked).outcome =
        found.elim (.error (LedgerError.notFound asked).raised) .ok := by
      refine (Audited.outcome_bind_of_ok looked).trans ?_
      cases found <;> rfl
    rw [ended]
    cases found <;> rfl

end Call

/-! ## Changing an identifier -/

/-- No fault is taken for an earning that is not there. -/
theorem Storage.Fault.error_ne_notFound (fault : Fault) (amount asked : Value) :
    fault.error amount ≠ .notFound asked := by
  unfold Fault.error overflowError
  dsimp only
  intro same
  split at same
  · split at same <;> cases same
  · split at same
    · cases same
    · split at same <;> cases same
    · cases same

namespace Writing

/-- Only a missing row is reported as an earning that is not there. -/
theorem reportHalt_notFound_iff (key : isKey id = true) {event message : String} {halt : Halt}
    {asked : Value} :
    (reportHalt id event message halt : Audited Earning).outcome =
        .error (.ledger (.notFound asked)) ↔ halt = .unknown ∧ asked = .int id := by
  cases halt with
  | unknown => simp [reportHalt, LedgerError.raised_notFound_of_key key, eq_comm]
  | outOfRange old new =>
    simp only [reduceCtorEq, false_and, iff_false]
    intro same
    cases same
  | fault fault amount =>
    simp only [reduceCtorEq, false_and, iff_false]
    intro same
    have same := (outcome_writeFault fault amount message (event ++ "_error") _).symm.trans same
    unfold Fault.metWriting at same
    split at same
    · exact fault.error_ne_notFound amount asked (by injection same with same; injection same)
    · cases same

theorem changed_ne_unknown {earning : Earning} {new : Int} :
    changed env earning new ≠ .error .unknown := by
  unfold changed
  split
  · exact fun same => nomatch same
  · split <;> exact fun same => nomatch same

theorem writeChange_ne_unknown {earning : Earning} :
    (writeChange env table earning).2 ≠ .error .unknown := by
  unfold writeChange
  split
  · exact fun same => nomatch same
  · split <;> exact fun same => nomatch same

/-- A change halts for want of a row exactly when there is none. -/
theorem changeRow_unknown_iff {compute : Int → Int} :
    (changeRow env id compute table).2 = .error .unknown ↔ table.find? id = none := by
  unfold changeRow
  cases table.find? id with
  | none => simp
  | some row =>
    simp only [reduceCtorEq, iff_false]
    intro halted
    split at halted
    · cases halted
    · next earning read =>
      split at halted
      · next halt refused =>
        obtain rfl := Except.error.inj halted
        exact changed_ne_unknown refused
      · next amended computed =>
        split at halted
        · next left halt refused =>
          obtain rfl := Except.error.inj halted
          exact writeChange_ne_unknown (congrArg Prod.snd refused)
        · cases halted

/-- A change whose statement is not struck finds no earning exactly when there is none. -/
theorem change_notFound_iff (calm : strike env.injection .execute = .ok ())
    (key : isKey id = true) {compute : Int → Int} {event message : String} :
    (change env (some table) id compute event message).audited.outcome =
        .error (.ledger (.notFound (.int id))) ↔ table.find? id = none := by
  have work : (changeStore env id compute (some table)).2 = (changeRow env id compute table).2 := by
    unfold changeStore
    rw [calm]
  have halts : (changeRow env id compute table).2 = .error .unknown ↔ table.find? id = none :=
    changeRow_unknown_iff
  rw [← halts, ← work]
  unfold change session
  rw [if_pos key]
  cases ended : changeStore env id compute (some table) with
  | mk left outcome =>
    cases outcome with
    | ok made =>
      simp only [reduceCtorEq, iff_false]
      intro same
      cases same
    | error halt =>
      have reported : (reportHalt id event message halt : Audited Earning).outcome =
          .error (.ledger (.notFound (.int id))) ↔ halt = .unknown ∧ Value.int id = .int id :=
        reportHalt_notFound_iff key
      simpa using reported

end Writing

namespace Call

/-- Setting an amount finds no earning exactly when there is none. -/
theorem updateAmount_notFound_iff (table : Table) (calm : strike env.injection .execute = .ok ())
    (key : isKey id = true) (amount : Amount) :
    ((updateAmount (.int id) (.int amount.val)).run env (some table)).outcome =
        .error (.ledger (.notFound (.int id))) ↔ table.find? id = none := by
  have admitted : (admitChange (.int id) checkAmount [("amount", .int amount.val)]
      "db_update_earning_invalid").outcome = .ok (id, amount) :=
    Audited.outcome_bind_eq_ok_iff.mpr ⟨id, rfl, Audited.outcome_bind_eq_ok_iff.mpr
      ⟨amount, outcome_approve_eq_ok_iff.mpr ⟨⟨_, rfl⟩, checkAmount_eq_ok_iff.mpr rfl⟩, rfl⟩⟩
  refine map_eq_error_iff.trans ?_
  rw [Writing.updateAmount, outcome_afterCheck_of_ok admitted]
  exact change_notFound_iff calm key

/-- Adding to an amount finds no earning exactly when there is none. -/
theorem addAmount_notFound_iff (table : Table) (calm : strike env.injection .execute = .ok ())
    (key : isKey id = true) {delta : Int} (low : -amountHigh ≤ delta) (high : delta ≤ amountHigh) :
    ((addAmount (.int id) (.int delta)).run env (some table)).outcome =
        .error (.ledger (.notFound (.int id))) ↔ table.find? id = none := by
  have admitted : (admitChange (.int id) checkDelta [("delta", .int delta)]
      "db_adjust_earning_invalid").outcome = .ok (id, delta) :=
    Audited.outcome_bind_eq_ok_iff.mpr ⟨id, rfl, Audited.outcome_bind_eq_ok_iff.mpr
      ⟨delta, outcome_approve_eq_ok_iff.mpr ⟨⟨_, rfl⟩, checkDelta_eq_ok_iff.mpr ⟨rfl, low, high⟩⟩,
        rfl⟩⟩
  refine map_eq_error_iff.trans ?_
  rw [Writing.addAmount, outcome_afterCheck_of_ok admitted]
  exact change_notFound_iff calm key

end Call

/-! ## The main result -/

/-- An earning that is what is known under its identifier. -/
structure Known.Tells (told : Known) (id : Int) (earning : Earning) : Prop where
  id : earning.id = id
  miner : earning.miner = told.miner
  pool : earning.pool = told.pool
  challenge : earning.challenge = told.challenge
  amount : earning.amount = told.amount
  created : earning.created = .plain told.created

/-- On a table that agrees with what is known, a look-up gives just that. -/
theorem Agrees.outcome_get {past : List Event} (agrees : Agrees past table)
    (calm : strike env.injection .get = .ok ()) (key : isKey id = true) :
    (table.find? id = none ∧ known past id = none ∧
      (Reading.get env (some table) (.int id)).outcome = .ok none) ∨
    ∃ row told earning, table.find? id = some row ∧ known past id = some told ∧
      told.Tells id earning ∧
      (Reading.get env (some table) (.int id)).outcome = .ok (some earning) := by
  have rows := agrees.rows id
  have looked := Reading.earningAt_of_calm table calm id
  generalize held : table.find? id = found at rows looked
  generalize known past id = said at rows
  cases rows with
  | none => exact .inl ⟨rfl, rfl, Reading.outcome_get_of_key key looked⟩
  | @some told row describes =>
    obtain ⟨member, number⟩ := Table.find?_eq_some_iff.mp held
    obtain ⟨created, updated, ordered, first, last⟩ := (agrees.sound.cells row member).stamps
    have read := Earning.ofRow_eq_ok first last
    -- the text of an instant tells the instant
    obtain rfl := Instant.storedText_injective (first.symm.trans describes.created)
    have tells : told.Tells id ⟨row.id, row.cells.miner, row.cells.pool, row.cells.challenge,
        row.cells.amount, .plain told.created, .plain updated⟩ :=
      ⟨number, describes.miner, describes.pool, describes.challenge, describes.amount, rfl⟩
    refine .inr ⟨row, told, _, rfl, rfl, tells, Reading.outcome_get_of_key key ?_⟩
    rw [looked, Option.elim_some, read]
    rfl

/-- **What was written is what is read.**  Behind every run from a ledger without rows,
an identifier is not found exactly when no answered call has given it out; and otherwise
what is read of it is the owner that its request told, the instant at which it was
granted, and the amount that the answered changes made of the first one, in their order.
-/
theorem reads_what_was_written {env : Environment} (calm : env.injection = none) {id : Int}
    (key : isKey id = true) (trigger : Bool) (turns : List Turn) :
    let past := history (freshStore trigger) turns
    let store := storeAfter (freshStore trigger) turns
    let unassigned := ∀ event ∈ past, id ∉ event.assigned
    (((Call.get (.int id)).run env store).outcome = .ok .nothing ↔ unassigned) ∧
    (((Call.getOrFail (.int id)).run env store).outcome =
      .error (.ledger (.notFound (.int id))) ↔ unassigned) ∧
    (∀ amount : Amount, ((Call.updateAmount (.int id) (.int amount.val)).run env store).outcome =
      .error (.ledger (.notFound (.int id))) ↔ unassigned) ∧
    (∀ delta : Int, -amountHigh ≤ delta → delta ≤ amountHigh →
      (((Call.addAmount (.int id) (.int delta)).run env store).outcome =
        .error (.ledger (.notFound (.int id))) ↔ unassigned)) ∧
    (known past id = none ↔ unassigned) ∧
    ∀ told, known past id = some told → ∃ earning, told.Tells id earning ∧
      ((Call.get (.int id)).run env store).outcome = .ok (.earning earning) ∧
      ((Call.getOrFail (.int id)).run env store).outcome = .ok (.earning earning) := by
  have calmly := strike_of_calm calm
  obtain ⟨table, left, agrees⟩ := agrees_after trigger turns
  intro past store unassigned
  have numbers : table.find? id = none ↔ unassigned := agrees.numbers id
  rw [show store = some table from left, ← numbers]
  have change := Call.updateAmount_notFound_iff table (calmly .execute) key
  have add := fun (delta : Int) (low : -amountHigh ≤ delta) (high : delta ≤ amountHigh) =>
    Call.addAmount_notFound_iff table (calmly .execute) key low high
  rcases agrees.outcome_get (calmly .get) key with
    ⟨absent, unknown, looked⟩ | ⟨row, told, earning, found, said, tells, looked⟩
  · obtain ⟨got, failed⟩ := Call.outcome_get looked
    refine ⟨?_, ?_, change, add, ?_, fun told said => ?_⟩
    · simp [got, absent]
    · simp [failed, absent, LedgerError.raised_notFound_of_key key]
    · simp [past, unknown, absent]
    · rw [show known past id = none from unknown] at said
      cases said
  · obtain ⟨got, given⟩ := Call.outcome_get looked
    refine ⟨?_, ?_, change, add, ?_, fun other same => ?_⟩
    · simp [got, found]
    · simp [given, found]
    · simp [past, said, found]
    · obtain rfl := Option.some.inj (said.symm.trans same)
      exact ⟨earning, tells, got, given⟩

/-- An earning opened without an amount, raised by a clock that runs back, and then
lowered too far: the refused change has left no mark on what is read. -/
theorem refused_change_is_not_read :
    let turns : List Turn :=
      [⟨.usual ⟨10, by decide⟩,
          .create [("miner_id", .int 5), ("pool_id", .int 6), ("challenge_id", .int 7)]⟩,
        ⟨.usual ⟨3, by decide⟩, .addAmount (.int 1) (.int 40)⟩,
        ⟨.usual ⟨4, by decide⟩, .addAmount (.int 1) (.int (-100))⟩]
    let env : Environment := .usual ⟨5, by decide⟩
    let told : Known := ⟨5, 6, 7, 40, ⟨10, by decide⟩⟩
    env.injection = none ∧ isKey 1 = true ∧ ∃ earning, told.Tells 1 earning ∧
      ((Call.get (.int 1)).run env (storeAfter (freshStore true) turns)).outcome =
        .ok (.earning earning) := by
  intro turns env told
  have key : isKey 1 = true := by decide
  have calm : env.injection = none := rfl
  obtain ⟨-, -, -, -, -, reads⟩ := reads_what_was_written calm key true turns
  obtain ⟨earning, tells, got, -⟩ := reads told rfl
  exact ⟨calm, key, earning, tells, got⟩

end EarningsLedger
