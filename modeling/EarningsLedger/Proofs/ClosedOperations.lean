import EarningsLedger.Proofs.ClassifiedRequests
import EarningsLedger.Proofs.SoundReads

/-!
# Operations that end in the ledger's own errors

An outcome is closed when it is a result or an error of the ledger.  This module says of
each operation, on a sound table and where no fault strikes, whether it is closed.  What
the driver refuses to write is reported as an amount out of range, and everything that
single earnings and sums ask for fits the driver.  A page and a count are closed only while
the numbers of their filter fit: reading lets the driver's refusal of a large one through.
Besides, an error that shows an integer cannot be made of one that is too long for a text.
-/

namespace EarningsLedger

open Check Storage Writing

/-! ## Closed outcomes -/

/-- An outcome that is a result or an error of the ledger. -/
def Closed {α : Type} (outcome : Except Failure α) : Prop :=
  ∀ failure, outcome = .error failure → ∃ error, failure = .ledger error

section Closed

variable {α β : Type}

@[simp] theorem closed_ok (a : α) : Closed (.ok a : Except Failure α) :=
  fun _ same => nomatch same

theorem closed_error_iff {failure : Failure} :
    Closed (.error failure : Except Failure α) ↔ ∃ error, failure = .ledger error := by
  constructor
  · exact fun closed => closed failure rfl
  · rintro ⟨error, rfl⟩ _ same
    cases same
    exact ⟨error, rfl⟩

@[simp] theorem closed_ledger (error : LedgerError) :
    Closed (.error (.ledger error) : Except Failure α) :=
  closed_error_iff.mpr ⟨error, rfl⟩

@[simp] theorem not_closed_fault (fault : Fault) :
    ¬ Closed (.error (.fault fault) : Except Failure α) := by
  intro closed
  obtain ⟨error, same⟩ := closed_error_iff.mp closed
  cases same

/-- Raising an error is closed when the error can be made. -/
@[simp] theorem closed_raised_iff {error : LedgerError} :
    Closed (.error error.raised : Except Failure α) ↔ error.isWorded = true := by
  unfold LedgerError.raised
  split <;> simp [*]

@[simp] theorem not_closed_misuse (misuse : Binding.Misuse) :
    ¬ Closed (.error (.misuse misuse) : Except Failure α) := by
  intro closed
  obtain ⟨error, same⟩ := closed_error_iff.mp closed
  cases same

@[simp] theorem closed_map_iff {outcome : Except Failure α} {f : α → β} :
    Closed (outcome.map f) ↔ Closed outcome := by
  cases outcome with
  | ok a => simp [Except.map]
  | error failure => simp [Except.map, closed_error_iff]

/-- A chain is closed when its first step is, and the rest behind it. -/
theorem closed_bind_iff {first : Audited α} {next : α → Audited β} :
    Closed (first >>= next).outcome ↔
      Closed first.outcome ∧ ∀ a, first.outcome = .ok a → Closed (next a).outcome := by
  cases ended : first.outcome with
  | ok a => simp [Audited.outcome_bind_of_ok ended]
  | error failure =>
    rw [Audited.outcome_bind_of_error ended]
    simp [closed_error_iff]

/-- Reading is closed when storage itself is at fault. -/
theorem closed_metReading_iff {fault : Fault} :
    Closed (.error fault.metReading : Except Failure α) ↔ fault.kind.isStorage = true := by
  unfold Fault.metReading
  split <;> simp_all

/-- Writing is closed when storage itself is at fault, or a number too large for it. -/
theorem closed_metWriting {fault : Fault} {amount : Value}
    (met : (fault.kind.isStorage || fault.kind == .overflow) = true) :
    Closed (.error (fault.metWriting amount) : Except Failure α) := by
  unfold Fault.metWriting
  rw [if_pos met]
  exact closed_ledger _

end Closed

/-- An identifier that is no integer is rejected. -/
theorem closed_admitId (id : Value) (event : String) : Closed (admitId id event).outcome := by
  cases id with
  | int n => exact closed_ok n
  | _ => exact closed_ledger _

variable {env : Environment} {table : Table}

/-! ## Numbers of a filter -/

namespace Filter

/-- A page that begins at a position that no cell can hold. -/
def StartsBeyond (f : Filter) : Prop := storedHigh < f.skip

instance (f : Filter) : Decidable f.StartsBeyond := inferInstanceAs (Decidable (_ < _))

/-- A last identifier seen that no cell can hold. -/
def SeenBeyond (f : Filter) : Prop := ∃ id, f.after = some id ∧ storedHigh < (id : Int)

end Filter

namespace Reading

/-- Owners are numbered by keys, so the last identifier seen decides whether the driver
can take a selection. -/
theorem storable_selectionOf_iff {f : Filter} {withCursor : Bool} :
    (selectionOf f withCursor).storable = true ↔ ¬ (withCursor = true ∧ f.SeenBeyond) := by
  have owner : ∀ asked : Option Key, ((asked.map Key.val).map isStorable).getD true = true := by
    intro asked
    cases asked with
    | none => rfl
    | some key =>
      have bounds := key.bounds
      simp only [keyLow, keyHigh] at bounds
      refine isStorable_iff.mpr ?_
      simp only [storedLow, storedHigh]
      omega
  simp only [Selection.storable, selectionOf, List.all_cons, List.all_nil, owner, Bool.true_and,
    Bool.and_true, Filter.SeenBeyond]
  cases withCursor with
  | false => simp
  | true =>
    cases f.after with
    | none => simp
    | some id =>
      simp only [if_true, Option.map_some, Option.getD_some, isStorable_iff, Option.some.injEq,
        true_and, exists_eq_left', storedLow, storedHigh, Int.ofNat_eq_natCast]
      omega

/-- The driver can take the numbers of a page exactly when neither its position nor the
last identifier seen is beyond a cell. -/
theorem pageFits_iff {f : Filter} (measured : f.Measured) :
    pageFits f = true ↔ ¬ f.StartsBeyond ∧ ¬ f.SeenBeyond := by
  obtain ⟨low, high⟩ := measured
  simp only [pageFits, Bool.and_eq_true, storable_selectionOf_iff, isStorable_iff, true_and,
    Filter.StartsBeyond]
  simp only [PageBounds.longestLimit] at high
  simp only [storedLow, storedHigh]
  constructor
  · intro whole
    obtain ⟨⟨seen, skip⟩, -⟩ := whole
    exact ⟨by omega, seen⟩
  · intro whole
    obtain ⟨skip, seen⟩ := whole
    exact ⟨⟨seen, by omega⟩, by omega⟩

/-! ## Reading operations -/

/-- Looking up an identifier in a sound table never fails. -/
theorem earningAt_of_sound (sound : table.Sound) (calm : strike env.injection .get = .ok ())
    (id : Int) : ∃ found, earningAt env (some table) id = .ok found := by
  rw [earningAt_of_calm table calm]
  cases held : table.find? id with
  | none => exact ⟨none, rfl⟩
  | some row =>
    obtain ⟨_, _, -, read⟩ := sound.ofRow (Table.find?_eq_some_iff.mp held).1
    exact ⟨_, by rw [Option.elim_some, read]; rfl⟩

/-- A value that is no integer is rejected, and everything else is looked up. -/
theorem closed_get (sound : table.Sound) (calm : strike env.injection .get = .ok ())
    (asked : Value) : Closed (get env (some table) asked).outcome := by
  refine closed_bind_iff.mpr ⟨?_, fun n _ => ?_⟩
  · exact closed_admitId asked _
  · split
    · obtain ⟨found, looked⟩ := earningAt_of_sound sound calm n
      refine closed_bind_iff.mpr ⟨?_, fun _ _ => closed_ok _⟩
      rw [looked]
      exact closed_ok found
    · exact closed_ok none

/-- An earning that must be there is closed when it is there, and when a text can show the
identifier that is asked for. -/
theorem closed_getOrFail_iff (sound : table.Sound) (calm : strike env.injection .get = .ok ())
    {asked : Value} :
    Closed (getOrFail env (some table) asked).outcome ↔
      ∀ n, asked = .int n → Text.isShort n = true := by
  have words : ∀ n, Closed (notFound "db_earning_not_found" (.int n) : Audited Earning).outcome ↔
      Text.isShort n = true := fun n => by
    rw [outcome_notFound, closed_raised_iff, LedgerError.isWorded_notFound]
  unfold getOrFail
  rw [closed_bind_iff]
  constructor
  · rintro ⟨-, each⟩ n rfl
    by_cases key : isKey n = true
    · exact isShort_of_isKey key
    · have missing : (get env (some table) (.int n)).outcome = .ok none := by
        refine (Audited.outcome_bind_of_ok rfl).trans ?_
        rw [if_neg key]
        rfl
      exact (words n).mp (each none missing)
  · intro short
    refine ⟨closed_get sound calm asked, fun found got => ?_⟩
    cases found with
    | some earning => exact closed_ok earning
    | none =>
      obtain ⟨n, admitted, -⟩ := Audited.outcome_bind_eq_ok_iff.mp got
      obtain rfl := outcome_admitId_eq_ok_iff.mp admitted
      exact (words n).mpr (short n rfl)

theorem closed_queryFilter_iff (sound : table.Sound)
    (calm : strike env.injection .execute = .ok ()) (f : Filter) :
    Closed (queryFilter env (some table) f).outcome ↔ pageFits f = true := by
  obtain ⟨earnings, -, read⟩ := pageRows_of_calm sound calm f
  unfold queryFilter
  rw [closed_bind_iff, outcome_readOutcome, read]
  cases pageFits f with
  | false => exact iff_of_false (fun closed => not_closed_fault _ closed.1) Bool.false_ne_true
  | true => exact iff_of_true ⟨closed_ok _, fun _ _ => closed_ok _⟩ rfl

theorem closed_pageOfFilter_iff (sound : table.Sound)
    (calm : strike env.injection .execute = .ok ()) (f : Filter) :
    Closed (pageOfFilter env (some table) f).outcome ↔ pageFits f = true := by
  obtain ⟨page, ended⟩ := outcome_pageOfFilter_of_calm sound calm f
  rw [ended]
  cases pageFits f with
  | false => exact iff_of_false (not_closed_fault _) Bool.false_ne_true
  | true => exact iff_of_true (closed_ok _) rfl

theorem closed_countFilter_iff (calm : strike env.injection .execute = .ok ()) (f : Filter)
    (withCursor : Bool) :
    Closed (countFilter env (some table) f withCursor).outcome ↔
      ¬ (withCursor = true ∧ f.SeenBeyond) := by
  rw [← storable_selectionOf_iff]
  unfold countFilter
  rw [outcome_readOutcome, rows_of_calm calm]
  cases (selectionOf f withCursor).storable with
  | false => exact iff_of_false (not_closed_fault _) Bool.false_ne_true
  | true => exact iff_of_true (closed_ok _) rfl

/-- A sum that no cell can hold is a fault of storage. -/
theorem kind_of_checkedSum {rows : List Row} {fault : Fault}
    (failed : checkedSum rows = .error fault) : fault.kind.isStorage = true := by
  unfold checkedSum at failed
  split at failed
  · obtain rfl := Except.error.inj failed
    rfl
  · cases failed

/-- Sums look at the owner only, and a driver takes every owner. -/
theorem closed_sums {α : Type} {sum : List Row → Except Fault α} {message event : String}
    {context : Fields} (calm : strike env.injection .execute = .ok ())
    (kinds : ∀ {rows : List Row} {fault : Fault}, sum rows = .error fault →
      fault.kind.isStorage = true) (f : Filter) :
    Closed (readOutcome ((rows env (some table) (selectionOf f false)).bind sum) message event
      context).outcome := by
  have picks : (selectionOf f false).storable = true :=
    storable_selectionOf_iff.mpr fun behind => Bool.false_ne_true behind.1
  rw [outcome_readOutcome, rows_of_calm calm, if_pos picks]
  show Closed ((sum (table.select (selectionOf f false))).mapError Fault.metReading)
  cases ended : sum (table.select (selectionOf f false)) with
  | ok total => exact closed_ok total
  | error fault => exact closed_metReading_iff.mpr (kinds ended)

theorem kind_of_minerSums {rows : List Row} {fault : Fault}
    (failed : minerSums rows = .error fault) : fault.kind.isStorage = true := by
  unfold minerSums at failed
  rcases mapM_cases (fun miner => (checkedSum (rows.filter fun row => row.cells.miner == miner)).map
    fun total => (miner, total)) (minersOf rows) with ⟨found, done, -⟩ | ⟨miner, -, other, here, stopped⟩
  · rw [done] at failed
    cases failed
  · obtain rfl := Except.error.inj (stopped.symm.trans failed)
    exact kind_of_checkedSum (map_eq_error_iff.mp here)

theorem closed_totalsByMiner (long : 1 ≤ env.limits.maximum)
    (calm : strike env.injection .execute = .ok ()) (pool challenge miner : Value) :
    Closed (totalsByMiner env (some table) pool challenge miner).outcome := by
  refine closed_bind_iff.mpr ⟨?_, fun f built => closed_bind_iff.mpr
    ⟨closed_sums calm kind_of_minerSums f, fun _ _ => closed_ok _⟩⟩
  have free : clashing (handed none
      [("pool_id", pool), ("challenge_id", challenge), ("miner_id", miner)]) = false :=
    clashing_present rfl
  rcases buildFilter_cases long (fun f (same : none = some f) => nomatch same)
    [("pool_id", pool), ("challenge_id", challenge), ("miner_id", miner)] with
    ⟨taken, -⟩ | ⟨-, ⟨error, failed⟩ | ⟨f, -, done⟩⟩
  · rw [free] at taken
    cases taken
  · rw [failed]
    exact closed_ledger error
  · rw [done]
    exact closed_ok f

theorem closed_totalsOfFilter (long : 1 ≤ env.limits.maximum)
    (calm : strike env.injection .execute = .ok ()) (f : Filter) :
    Closed (totalsOfFilter env (some table) f).outcome := by
  refine closed_bind_iff.mpr ⟨closed_totalsByMiner long calm _ _ _, fun _ _ =>
    closed_bind_iff.mpr ⟨?_, fun _ _ => closed_bind_iff.mpr
      ⟨closed_sums calm kind_of_checkedSum f, fun _ _ => closed_ok _⟩⟩⟩
  exact (closed_countFilter_iff calm f false).mpr fun behind => Bool.false_ne_true behind.1

end Reading

/-! ## Writing operations -/

namespace Writing

/-- Rows are refused for want of identifiers only. -/
theorem fault_of_appendRows {cells : List Cells} {before : Table} {fault : Fault}
    (failed : (appendRows cells before).2 = .error fault) : fault = .full := by
  induction cells generalizing before with
  | nil => cases failed
  | cons first rest ih =>
    unfold appendRows at failed
    split at failed
    · next refused =>
      cases failed
      unfold appendRow at refused
      split at refused
      · cases refused
      · cases refused
        rfl
    · next middle row placed =>
      split at failed
      · cases failed
      · next last inner =>
        cases failed
        exact ih (congrArg Prod.snd inner)

/-- Storing drafts in a table, where the commit is not struck, fails over a number that
is too large or for want of identifiers. -/
theorem fault_of_storeDrafts (calm : strike env.injection .commit = .ok ()) {drafts : List Draft}
    {fault : Fault} (failed : (storeDrafts env drafts (some table)).2 = .error fault) :
    fault = .tooLarge ∨ fault = .full := by
  unfold storeDrafts at failed
  rw [calm] at failed
  have failed : (insertRows (cellsAt env.now drafts) table).2 = .error fault := failed
  unfold insertRows at failed
  split at failed
  · exact .inr (fault_of_appendRows failed)
  · exact .inl (Except.error.inj failed).symm

theorem closed_createDraft (calm : strike env.injection .commit = .ok ()) (draft : Draft) :
    Closed (createDraft env (some table) draft).audited.outcome := by
  unfold createDraft
  split
  · next left fault refused =>
    dsimp only
    rw [outcome_writeFault]
    rcases fault_of_storeDrafts calm (error_of_session refused) with rfl | rfl
    · exact closed_metWriting rfl
    · exact closed_metWriting rfl
  · next left rows stored =>
    obtain ⟨before, after, -, -, -, rfl⟩ := session_storeDrafts_eq_ok_iff.mp stored
    rw [earningsOf_numbered]
    exact closed_ok _

/-- A check of named values is closed when it can make the error of its issues, unless one of
the names is the check's own. -/
theorem closed_approve_iff {α : Type} {check : Fields → Verdict α} {event : String} {data : Fields}
    (free : clashing data = false) :
    Closed (approve check event data).outcome ↔
      ∀ issues, check data = .error issues → (errorOfIssues issues).isWorded = true := by
  rw [outcome_approve_of_free free]
  cases check data <;> simp [Except.mapError]

/-- The check of a form is closed when a text can show every sum of money that it is told. -/
theorem closed_approve_form_iff (form : Form) (numeric : form ∈ [Form.draft, .newAmount, .change])
    {α : Type} {check : Fields → Verdict α} {held : α → Fields} {event : String} {data : Fields}
    (checks : form.check data = (check data).map held) (free : clashing data = false) :
    Closed (approve check event data).outcome ↔ form.TellsShort data := by
  rw [closed_approve_iff free, ← form.isWorded_of_refused_iff numeric, checks]
  simp only [map_eq_error_iff]

theorem closed_afterCheck_iff {α β : Type} {store : Store} {checked : Audited α}
    {next : α → Written β} :
    Closed (afterCheck store checked next).audited.outcome ↔
      Closed checked.outcome ∧ ∀ a, checked.outcome = .ok a → Closed (next a).audited.outcome := by
  cases admitted : checked.outcome with
  | ok a => simp [outcome_afterCheck_of_ok admitted]
  | error failure => simp [afterCheck, admitted, closed_error_iff]

/-- A new earning whose arguments fit the operation is closed when a text can show the amount
that is given. -/
theorem closed_create_iff (calm : strike env.injection .commit = .ok ()) {arguments : Fields}
    {bound : Binding.Bound} (fits : createSignature.bind [] arguments = .ok bound) :
    Closed (create env (some table) arguments).audited.outcome ↔
      ∀ n, bound.given.get? "amount" = some (.int n) → Text.isShort n = true := by
  let given (name : String) := (bound.given.get? name).getD .null
  let data : Fields := [("miner_id", given "miner_id"), ("pool_id", given "pool_id"),
    ("challenge_id", given "challenge_id"), ("amount", givenAmount (given "amount"))]
  have admits : (admitDraft arguments).outcome =
      (approve Draft.check "db_create_earning_invalid" data).outcome := by
    unfold admitDraft
    rw [fits]
    rfl
  have tells : Form.draft.TellsShort data ↔
      ∀ n, givenAmount (given "amount") = .int n → Text.isShort n = true := by
    simp [Form.TellsShort, Form.numbers, NumberAsked.key, NumberAsked.isMoney, data, Fields.get?]
  rw [create, closed_afterCheck_iff, admits,
    closed_approve_form_iff .draft List.mem_cons_self rfl rfl, tells]
  constructor
  · intro whole n told
    exact whole.1 n (by simp [given, told, givenAmount, Value.isNull])
  · intro short
    refine ⟨fun n told => ?_, fun draft _ => closed_createDraft calm draft⟩
    unfold givenAmount at told
    split at told
    · obtain rfl := Value.int.inj told
      decide
    · cases held : bound.given.get? "amount" with
      | none => simp [given, held] at told
      | some amount => exact short n (by simpa [given, held] using told)

/-- What a change may halt for: everything but a fault that writing lets through. -/
def Halt.Reported : Halt → Prop
  | .fault met _ => (met.kind.isStorage || met.kind == .overflow) = true
  | _ => True

theorem closed_reportHalt {id : Int} {event message : String} {halt : Halt}
    (key : isKey id = true) (reported : halt.Reported) :
    Closed (reportHalt id event message halt : Audited Earning).outcome := by
  cases halt with
  | unknown =>
    show Closed (Reading.notFound (event ++ "_not_found") (.int id) : Audited Earning).outcome
    rw [outcome_notFound, closed_raised_iff, LedgerError.isWorded_notFound]
    exact isShort_of_isKey key
  | outOfRange old new => exact closed_ledger _
  | fault fault amount =>
    unfold reportHalt
    rw [outcome_writeFault]
    exact closed_metWriting reported

/-- A change on a sound table, where the commit is not struck, halts for what is
reported: its row can be read. -/
theorem reported_of_changeRow (sound : table.Sound) (calm : strike env.injection .commit = .ok ())
    {id : Int} {compute : Int → Int} {halt : Halt}
    (halted : (changeRow env id compute table).2 = .error halt) : halt.Reported := by
  unfold changeRow at halted
  split at halted
  · cases halted
    trivial
  · next row found =>
    obtain ⟨_, _, -, read⟩ := sound.ofRow (Table.find?_eq_some_iff.mp found).1
    rw [read] at halted
    dsimp only at halted
    split at halted
    · next refused =>
      cases halted
      unfold changed at refused
      split at refused
      · cases refused
        trivial
      · split at refused
        · cases refused
          rfl
        · cases refused
    · next amended computed =>
      unfold writeChange at halted
      rw [calm] at halted
      dsimp only at halted
      split at halted
      · next refused =>
        cases halted
        split at refused
        · cases refused
        · cases refused
          rfl
      · cases halted

/-- A change is closed when a text can show the identifier that it is asked for. -/
theorem closed_change_iff (sound : table.Sound)
    (calm : ∀ point, strike env.injection point = .ok ()) {id : Int} {compute : Int → Int}
    {event message : String} :
    Closed (change env (some table) id compute event message).audited.outcome ↔
      Text.isShort id = true := by
  unfold change
  split
  · next key =>
    refine iff_of_true ?_ (isShort_of_isKey key)
    split
    · next left halt refused =>
      have halted := error_of_session refused
      unfold changeStore at halted
      rw [calm .execute] at halted
      exact closed_reportHalt key (reported_of_changeRow sound (calm .commit) halted)
    · exact closed_ok _
  · rw [unchanged, outcome_notFound, closed_raised_iff, LedgerError.isWorded_notFound]

/-- **A request for a change** is closed, unless its identifier is an integer and either the
number that comes with it is too long for a text, or that number passes and the identifier is
too long. -/
theorem closed_admitted_change_iff (sound : table.Sound)
    (calm : ∀ point, strike env.injection point = .ok ()) (form : Form)
    (numeric : form ∈ [Form.draft, .newAmount, .change]) {α : Type} (compute : α → Int → Int)
    {id : Value} {check : Fields → Verdict α} {held : α → Fields} {named : Fields}
    (checks : form.check named = (check named).map held)
    (fits : ∃ bound, checkSignature.bind [.null, .null] named = .ok bound)
    (free : clashing named = false) {invalid event message : String} :
    Closed (afterCheck (some table) (admitChange id check named invalid) fun found =>
      change env (some table) found.1 (compute found.2) event message).audited.outcome ↔
    ∀ n, id = .int n →
      form.TellsShort named ∧ ∀ a, check named = .ok a → Text.isShort n = true := by
  have admits : Closed (admitChange id check named invalid).outcome ↔
      ∀ n, id = .int n → form.TellsShort named := by
    simp only [admitChange, closed_bind_iff, closed_admitId,
      closed_approve_form_iff form numeric checks free, outcome_admitId_eq_ok_iff,
      Audited.outcome_pure, closed_ok, true_and, implies_true, and_true]
  rw [closed_afterCheck_iff, admits]
  simp only [closed_change_iff sound calm]
  constructor
  · rintro ⟨tells, admitted⟩ n rfl
    exact ⟨tells n rfl, fun a passed => admitted (n, a) (outcome_admitChange_of_ok fits passed)⟩
  · intro short
    refine ⟨fun n same => (short n same).1, fun found admitted => ?_⟩
    obtain ⟨same, passed⟩ := admitChange_ok admitted
    exact (short found.1 same).2 found.2 passed

theorem closed_updateAmount_iff (sound : table.Sound)
    (calm : ∀ point, strike env.injection point = .ok ()) {id amount : Value} :
    Closed (updateAmount env (some table) id amount).audited.outcome ↔ ∀ n, id = .int n →
      Form.newAmount.TellsShort [("amount", amount)] ∧
        ∀ a, checkAmount [("amount", amount)] = .ok a → Text.isShort n = true := by
  have checks : Form.newAmount.check [("amount", amount)] =
      (checkAmount [("amount", amount)]).map fun a => [("amount", .int a.val)] := rfl
  unfold updateAmount
  exact closed_admitted_change_iff sound calm .newAmount (by simp) (fun (a : Amount) _ => a.val)
    checks ⟨_, rfl⟩ rfl

theorem closed_addAmount_iff (sound : table.Sound)
    (calm : ∀ point, strike env.injection point = .ok ()) {id delta : Value} :
    Closed (addAmount env (some table) id delta).audited.outcome ↔ ∀ n, id = .int n →
      Form.change.TellsShort [("delta", delta)] ∧
        ∀ d, checkDelta [("delta", delta)] = .ok d → Text.isShort n = true := by
  have checks : Form.change.check [("delta", delta)] =
      (checkDelta [("delta", delta)]).map fun d => [("delta", .int d)] := rfl
  unfold addAmount
  exact closed_admitted_change_iff sound calm .change (by simp) (fun (d : Int) old => old + d)
    checks ⟨_, rfl⟩ rfl

end Writing

end EarningsLedger
