import EarningsLedger.Proofs.LoggedEntries
import EarningsLedger.Proofs.RowFrames

/-!
# Audit records

Three events of the log record what became of the ledger: an earning was opened, many
were opened at once, an amount was changed.  An `AuditRecord` is what such an entry says,
read back from the entry alone, and `recordsOf` reads a whole log.

An answered call that writes leaves exactly one record, of what it did, and one that reads
leaves none (`Call.records_of_ok`).  A call that fails records nothing, wherever it fails
(`Call.records_of_error`).
-/

namespace EarningsLedger

open Audited Log Storage Writing

/-! ## Records -/

/-- What an entry of the log says about the rows of the ledger. -/
inductive AuditRecord where
  | opened (id amount : Int)
  | openedMany (count total : Int)
  | moved (id old new : Int)
  deriving DecidableEq, Repr

/-- The number under a name in an entry. -/
def Log.Entry.number (entry : Entry) (name : String) : Int := numberOf (entry.fields.get? name)

/-- The events that are recorded. -/
def auditEvents : List String := ["earning_created", "earnings_batch_created", "earning_updated"]

/-- What an entry records, if its event is one that is recorded. -/
def Log.Entry.record? (entry : Entry) : Option AuditRecord :=
  if entry.event = "earning_created" then
    some (.opened (entry.number "earning_id") (entry.number "amount"))
  else if entry.event = "earnings_batch_created" then
    some (.openedMany (entry.number "count") (entry.number "total_amount"))
  else if entry.event = "earning_updated" then
    some (.moved (entry.number "earning_id") (entry.number "old_amount")
      (entry.number "new_amount"))
  else none

/-- The records of a log, in order. -/
def recordsOf (entries : List Entry) : List AuditRecord := entries.filterMap Entry.record?

/-- An entry about any other event records nothing. -/
theorem Log.Entry.record?_eq_none {level : Level} {message event : String} {rest : Fields}
    (other : event ∉ auditEvents) :
    Entry.record? ⟨level, message, eventField event :: rest⟩ = none := by
  simp only [auditEvents, List.mem_cons, List.not_mem_nil, or_false, not_or] at other
  simp only [record?, event_eventField, other.1, other.2.1, other.2.2, if_false]

/-! ## Operations that record nothing -/

/-- An operation that records nothing, however it ends. -/
def Silent {α : Type} (audited : Audited α) : Prop := audited.shows Entry.record? = []

section Silent

variable {α β : Type} {event : String}

theorem silent_bind {first : Audited α} {next : α → Audited β} (here : Silent first)
    (later : ∀ a, Silent (next a)) : Silent (first >>= next) :=
  shows_bind_nil here later

theorem silent_map {audited : Audited α} (f : α → β) (silent : Silent audited) :
    Silent (f <$> audited) :=
  (shows_map f audited).trans silent

theorem silent_log (level : Level) (message : String) (rest : Fields)
    (other : event ∉ auditEvents) : Silent (Audited.log level message (eventField event :: rest)) := by
  rw [Silent, shows_log, Entry.record?_eq_none other]
  rfl

theorem silent_reject (message : String) (field : Fields) (error : LedgerError)
    (other : event ∉ auditEvents) : Silent (reject message event field error : Audited α) := by
  by_cases worded : error.isWorded = true
  · rw [Silent, shows_reject_of_worded _ _ _ worded, Entry.record?_eq_none other]
    rfl
  · exact shows_reject_of_unworded _ _ _ worded

theorem silent_notFound (id : Value) (other : event ∉ auditEvents) :
    Silent (Reading.notFound event id : Audited α) := by
  rw [Silent, shows_notFound, Entry.record?_eq_none other]
  rfl

theorem silent_report (trouble : Trouble) (error : LedgerError) (message : String)
    (context : Fields) (other : event ∉ auditEvents) :
    Silent (report trouble error message event context : Audited α) := by
  rw [Silent, shows_report, Entry.record?_eq_none other]
  rfl

theorem silent_readOutcome (outcome : Except Fault α) (message : String) (context : Fields)
    (other : event ∉ auditEvents) : Silent (readOutcome outcome message event context) := by
  unfold readOutcome
  split
  · rfl
  · split
    · exact silent_report _ _ _ _ other
    · rfl

theorem silent_writeFault (fault : Fault) (amount : Value) (message : String) (context : Fields)
    (other : event ∉ auditEvents) :
    Silent (writeFault fault amount message event context : Audited α) := by
  unfold writeFault
  split
  · exact silent_report _ _ _ _ other
  · rfl

theorem silent_approve (check : Fields → Check.Verdict α) (data : Fields)
    (other : event ∉ auditEvents) : Silent (approve check event data) := by
  unfold approve
  split
  · rfl
  · split
    · rfl
    · exact silent_reject _ _ _ other

theorem silent_admitId (id : Value) (other : event ∉ auditEvents) : Silent (admitId id event) := by
  cases id with
  | int n => rfl
  | _ => exact silent_reject _ _ _ other

theorem silent_buildFilter (limits : Limits) (ready : Option Filter) (named : Fields) :
    Silent (buildFilter limits ready named) := by
  have checked : ∀ data : Fields, Silent (approve Filter.check filterEvent data >>= fun f =>
      (pure (f.capped limits.maximum) : Audited Filter)) :=
    fun data => silent_bind (silent_approve _ _ (by decide)) fun _ => shows_pure _
  cases ready with
  | none => exact checked _
  | some f =>
    cases named with
    | nil => rfl
    | cons field rest => exact checked _

end Silent

namespace Reading

variable (env : Environment) (store : Store)

theorem silent_get (id : Value) : Silent (get env store id) := by
  refine silent_bind (silent_admitId id (by decide)) fun n => ?_
  split
  · exact silent_bind (silent_readOutcome _ _ _ (by decide)) fun _ =>
      silent_bind (silent_log _ _ _ (by decide)) fun _ => rfl
  · rfl

theorem silent_getOrFail (id : Value) : Silent (getOrFail env store id) := by
  refine silent_bind (silent_get env store id) fun found => ?_
  cases found with
  | none => exact silent_notFound id (by decide)
  | some earning => rfl

theorem silent_queryFilter (f : Filter) : Silent (queryFilter env store f) :=
  silent_bind (silent_readOutcome _ _ _ (by decide)) fun _ =>
    silent_bind (silent_log _ _ _ (by decide)) fun _ => rfl

theorem silent_countFilter (f : Filter) (withCursor : Bool) :
    Silent (countFilter env store f withCursor) :=
  silent_readOutcome _ _ _ (by decide)

theorem silent_pageOfFilter (f : Filter) : Silent (pageOfFilter env store f) :=
  silent_bind (silent_queryFilter env store f) fun _ =>
    silent_bind (silent_countFilter env store f true) fun _ => silent_bind rfl fun _ => rfl

theorem silent_totalFilter (f : Filter) : Silent (totalFilter env store f) :=
  silent_readOutcome _ _ _ (by decide)

theorem silent_totalsByMiner (pool challenge miner : Value) :
    Silent (totalsByMiner env store pool challenge miner) :=
  silent_bind (silent_buildFilter _ _ _) fun _ =>
    silent_bind (silent_readOutcome _ _ _ (by decide)) fun _ =>
      silent_bind (silent_log _ _ _ (by decide)) fun _ => rfl

theorem silent_totalsOfFilter (f : Filter) : Silent (totalsOfFilter env store f) :=
  silent_bind (silent_totalsByMiner env store _ _ _) fun _ =>
    silent_bind (silent_countFilter env store f false) fun _ =>
      silent_bind (silent_totalFilter env store f) fun _ => rfl

end Reading

/-- A filter that is built for a request is built without a record. -/
theorem Call.silent_filterFor {α : Type} (env : Environment) (operation : String)
    (ready : Option Filter) (named : Value) {next : Filter → Audited α}
    (later : ∀ f, Silent (next f)) : Silent (Call.filterFor env operation ready named >>= next) :=
  silent_bind (silent_bind (shows_ofExcept _) fun _ => silent_buildFilter _ _ _) later

theorem Call.silent_countFor (env : Environment) (store : Store) (ready : Option Filter)
    (withCursor : Option Value) (named : Value) :
    Silent (Call.countFor env store ready withCursor named) := by
  refine silent_bind (shows_ofExcept _) fun bound => ?_
  have counted : ∀ flag : Value, Silent (buildFilter env.limits ready bound.extras >>= fun f =>
      Answer.number <$> Reading.countFilter env store f flag.isSomething) := fun flag =>
    silent_bind (silent_buildFilter _ _ _) fun f =>
      silent_map _ (Reading.silent_countFilter env store f _)
  cases withCursor with
  | none => exact counted _
  | some flag =>
    cases bound.given.get? "with_cursor" with
    | none => exact counted flag
    | some other => exact shows_bind_nil (shows_fail _) counted

/-- Reading records nothing. -/
theorem Call.records_of_reads {call : Call} (reads : call.reads = true) (env : Environment)
    (store : Store) : recordsOf (call.run env store).entries = [] := by
  cases call with
  | create _ => cases reads
  | createBatch _ => cases reads
  | updateAmount _ _ => cases reads
  | addAmount _ _ => cases reads
  | get id =>
    refine silent_bind (Reading.silent_get env store id) fun found => ?_
    cases found <;> rfl
  | getOrFail id => exact silent_map _ (Reading.silent_getOrFail env store id)
  | query ready named =>
    exact silent_filterFor env _ ready named fun f =>
      silent_map _ (Reading.silent_queryFilter env store f)
  | queryPage ready named =>
    exact silent_filterFor env _ ready named fun f =>
      silent_map _ (Reading.silent_pageOfFilter env store f)
  | count ready withCursor named => exact silent_countFor env store ready withCursor named
  | totalAmount ready named =>
    exact silent_filterFor env _ ready named fun f =>
      silent_map _ (Reading.silent_totalFilter env store f)
  | totalsByMiner pool challenge miner =>
    exact silent_map _ (Reading.silent_totalsByMiner env store pool challenge miner)
  | summarize ready named =>
    exact silent_filterFor env _ ready named fun f =>
      silent_map _ (Reading.silent_totalsOfFilter env store f)

/-! ## Operations that record their result -/

/-- The amount in the row of an identifier; nothing where there is no row. -/
def Storage.Table.amountAt (table : Table) (id : Int) : Int :=
  ((table.find? id).map fun row => row.cells.amount).getD 0

theorem Storage.Table.amountAt_of_mem {table : Table} {row : Row} (held : row ∈ table.rows) :
    table.amountAt row.id = row.cells.amount := by
  rw [amountAt, find?_eq_some_iff.mpr ⟨held, rfl⟩]
  rfl

/-- An operation that records its result, and nothing when it fails. -/
structure Recorded {α : Type} (said : α → List AuditRecord) (audited : Audited α) : Prop where
  done : ∀ {a : α}, audited.outcome = .ok a → audited.shows Entry.record? = said a
  failed : ∀ {failure : Failure}, audited.outcome = .error failure →
    audited.shows Entry.record? = []

namespace Writing

variable {α β : Type} {said : β → List AuditRecord} {env : Environment}

/-- What was refused before it recorded anything is recorded as nothing. -/
theorem recorded_of_failure {audited : Audited β} {failure : Failure}
    (refused : audited.outcome = .error failure) (silent : Silent audited) :
    Recorded said audited := by
  refine ⟨fun done => ?_, fun _ => silent⟩
  rw [refused] at done
  cases done

/-- The check of a request records nothing, so the work behind it decides. -/
theorem recorded_afterCheck {store : Store} {checked : Audited α} {next : α → Written β}
    (silent : Silent checked) (behind : ∀ a, checked.outcome = .ok a → Recorded said (next a).audited) :
    Recorded said (afterCheck store checked next).audited := by
  cases admitted : checked.outcome with
  | error failure =>
    have refused : (afterCheck store checked next).audited.outcome = .error failure := by
      unfold afterCheck
      rw [admitted]
    refine recorded_of_failure refused ?_
    unfold afterCheck
    rw [admitted]
    exact silent
  | ok a =>
    have whole : (afterCheck store checked next).audited.shows Entry.record? =
        (next a).audited.shows Entry.record? := by
      have none : checked.entries.filterMap Entry.record? = [] := silent
      unfold afterCheck
      rw [admitted]
      simp only [shows, List.filterMap_append, none, List.nil_append]
    have ended : (afterCheck store checked next).audited.outcome = (next a).audited.outcome :=
      outcome_afterCheck_of_ok admitted
    refine ⟨fun done => ?_, fun failed => ?_⟩
    · rw [whole]
      exact (behind a admitted).done (ended.symm.trans done)
    · rw [whole]
      exact (behind a admitted).failed (ended.symm.trans failed)

/-- A new earning is recorded with its identifier and its amount. -/
theorem recorded_createDraft (store : Store) (draft : Draft) :
    Recorded (fun earning => [.opened earning.id earning.amount])
      (createDraft env store draft).audited := by
  unfold createDraft
  split
  · exact recorded_of_failure (outcome_writeFault ..) (silent_writeFault _ _ _ _ (by decide))
  · split
    · next earning rest _ =>
      refine ⟨fun done => ?_, fun failed => nomatch failed⟩
      cases done
      rfl
    · exact recorded_of_failure rfl rfl

/-- New earnings are recorded together, with their number and what they add up to. -/
theorem recorded_createDrafts (store : Store) (drafts : List Draft) :
    Recorded (fun earnings => if earnings = [] then [] else
        [.openedMany earnings.length (totalAmount earnings)])
      (createDrafts env store drafts).audited := by
  unfold createDrafts
  cases drafts with
  | nil =>
    refine ⟨fun done => ?_, fun failed => nomatch failed⟩
    cases done
    rfl
  | cons draft rest =>
    simp only [List.isEmpty_cons, Bool.false_eq_true, if_false]
    split
    · exact recorded_of_failure (outcome_writeFault ..) (silent_writeFault _ _ _ _ (by decide))
    · next after rows stored =>
      obtain ⟨before, _, -, -, -, rfl⟩ := session_storeDrafts_eq_ok_iff.mp stored
      rw [earningsOf_numbered]
      refine ⟨fun done => ?_, fun failed => nomatch failed⟩
      cases done
      rfl

/-- A change that was not made is reported without a record. -/
theorem silent_reportHalt {id : Int} {event message : String} {halt : Halt}
    (other : ∀ suffix ∈ ["_not_found", "_overflow", "_error"], event ++ suffix ∉ auditEvents) :
    Silent (reportHalt id event message halt : Audited Earning) := by
  cases halt with
  | unknown => exact silent_notFound _ (other _ (by decide))
  | outOfRange old new =>
    exact silent_bind (silent_log _ _ _ (other _ (by decide))) fun _ =>
      silent_report _ _ _ _ (other _ (by decide))
  | fault fault amount => exact silent_writeFault _ _ _ _ (other _ (by decide))

/-- A change is recorded with the amount that it found and the amount that it left. -/
theorem recorded_change {before : Table} (sound : before.Sound) {id : Int} {compute : Int → Int}
    {event message : String}
    (other : ∀ suffix ∈ ["_not_found", "_overflow", "_error"], event ++ suffix ∉ auditEvents) :
    Recorded (fun earning => [.moved id (before.amountAt id) earning.amount])
      (change env (some before) id compute event message).audited := by
  unfold change
  cases key : isKey id with
  | false => exact recorded_of_failure rfl (silent_notFound _ (other _ (by decide)))
  | true =>
    simp only [if_true]
    split
    · next left halt refused =>
      obtain ⟨failure, fails⟩ := outcome_reportHalt id event message halt
      exact recorded_of_failure fails (silent_reportHalt other)
    · next left made changed =>
      obtain ⟨_, after, same, -, amends⟩ := session_changeStore_eq_ok_iff.mp changed
      cases same
      obtain ⟨row, created, updated, stamp, ⟨held, rfl⟩, -, -, rfl, -⟩ := sound.of_amends amends
      refine ⟨fun done => ?_, fun failed => nomatch failed⟩
      cases done
      rw [Table.amountAt_of_mem held]
      rfl

/-- A request for a change is checked without a record. -/
theorem silent_admitChange {id : Value} {check : Fields → Check.Verdict α} {named : Fields}
    {event : String} (other : event ∉ auditEvents) : Silent (admitChange id check named event) :=
  silent_bind (silent_admitId id other) fun _ => silent_bind (silent_approve _ _ other) fun _ => rfl

theorem silent_admitDraft (arguments : Fields) : Silent (admitDraft arguments) :=
  silent_bind (shows_ofExcept _) fun _ => silent_approve _ _ (by decide)

theorem silent_admitItem (item : Value) : Silent (admitItem item) := by
  unfold admitItem
  split
  · rfl
  · exact silent_bind (shows_ofExcept _) fun _ => silent_bind (shows_ofExcept _) fun _ =>
      silent_approve _ _ (by decide)

theorem silent_admitItems (items : List Value) : Silent (admitItems items) := by
  induction items with
  | nil => rfl
  | cons item rest ih => exact silent_bind (silent_admitItem item) fun _ => silent_bind ih fun _ => rfl

theorem silent_admitBatch (batch : Value) : Silent (admitBatch batch) :=
  silent_bind (shows_ofExcept _) fun items => silent_admitItems items

end Writing

/-! ## Calls -/

/-- What an answered call records of the rows that it found and of its answer. -/
def Call.records (before : Table) : Call → Answer → List AuditRecord
  | .create _, .earning earning => [.opened earning.id earning.amount]
  | .createBatch _, .earnings earnings =>
    if earnings = [] then [] else [.openedMany earnings.length (Writing.totalAmount earnings)]
  | .updateAmount (.int id) _, .earning earning =>
    [.moved id (before.amountAt id) earning.amount]
  | .addAmount (.int id) _, .earning earning => [.moved id (before.amountAt id) earning.amount]
  | _, _ => []

namespace Call

variable {env : Environment} {before : Table} {call : Call}

theorem recorded_create (env : Environment) (before : Table) (arguments : Fields) :
    Recorded (fun earning => (Call.create arguments).records before (.earning earning))
      (Writing.create env (some before) arguments).audited :=
  recorded_afterCheck (silent_admitDraft arguments) fun draft _ => recorded_createDraft _ draft

theorem recorded_createBatch (env : Environment) (before : Table) (batch : Value) :
    Recorded (fun earnings => (Call.createBatch batch).records before (.earnings earnings))
      (Writing.createBatch env (some before) batch).audited :=
  recorded_afterCheck (silent_admitBatch batch) fun drafts _ => recorded_createDrafts _ drafts

theorem recorded_updateAmount (env : Environment) (sound : before.Sound) (id amount : Value) :
    Recorded (fun earning => (Call.updateAmount id amount).records before (.earning earning))
      (Writing.updateAmount env (some before) id amount).audited := by
  refine recorded_afterCheck (silent_admitChange (by decide)) fun found admitted => ?_
  obtain ⟨rfl, -⟩ := admitChange_ok admitted
  exact recorded_change sound (by decide)

theorem recorded_addAmount (env : Environment) (sound : before.Sound) (id delta : Value) :
    Recorded (fun earning => (Call.addAmount id delta).records before (.earning earning))
      (Writing.addAmount env (some before) id delta).audited := by
  refine recorded_afterCheck (silent_admitChange (by decide)) fun found admitted => ?_
  obtain ⟨rfl, -⟩ := admitChange_ok admitted
  exact recorded_change sound (by decide)

/-- **What an answered call records.** -/
theorem records_of_ok (sound : before.Sound) {answer : Answer}
    (done : (call.run env (some before)).outcome = .ok answer) :
    recordsOf (call.run env (some before)).entries = call.records before answer := by
  cases call with
  | create arguments =>
    obtain ⟨earning, created, rfl⟩ := map_eq_ok_iff.mp done
    exact (recorded_create env before arguments).done created
  | createBatch batch =>
    obtain ⟨earnings, created, rfl⟩ := map_eq_ok_iff.mp done
    exact (recorded_createBatch env before batch).done created
  | updateAmount id amount =>
    obtain ⟨earning, made, rfl⟩ := map_eq_ok_iff.mp done
    exact (recorded_updateAmount env sound id amount).done made
  | addAmount id delta =>
    obtain ⟨earning, made, rfl⟩ := map_eq_ok_iff.mp done
    exact (recorded_addAmount env sound id delta).done made
  | _ =>
    rw [records_of_reads rfl]
    rfl

/-- **A call that fails records nothing.** -/
theorem records_of_error (sound : before.Sound) {failure : Failure}
    (failed : (call.run env (some before)).outcome = .error failure) :
    recordsOf (call.run env (some before)).entries = [] := by
  cases call with
  | create arguments => exact (recorded_create env before arguments).failed (map_eq_error_iff.mp failed)
  | createBatch batch =>
    exact (recorded_createBatch env before batch).failed (map_eq_error_iff.mp failed)
  | updateAmount id amount =>
    exact (recorded_updateAmount env sound id amount).failed (map_eq_error_iff.mp failed)
  | addAmount id delta =>
    exact (recorded_addAmount env sound id delta).failed (map_eq_error_iff.mp failed)
  | _ => exact records_of_reads rfl env _

end Call

end EarningsLedger
