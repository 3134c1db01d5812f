import EarningsLedger.Ledger.Call
import EarningsLedger.Proofs.FailureAlarms
import EarningsLedger.Proofs.SessionWrites

/-!
# Courses of calls

`Call.course` follows a call without its log, and tells where its failure comes from: the
check of the request first, and then the work of the session.  `Call.follows_course` says
that every call follows its course, on any store and in any environment, so the alarms of
a call can be read off the origin of its failure.
-/

namespace EarningsLedger

open Audited Calendar Log Storage Writing

/-! ## Checks of requests -/

theorem Call.blames_filterFor (env : Environment) (operation : String) (ready : Option Filter)
    (named : Value) : Blames .request (Call.filterFor env operation ready named) :=
  blames_bind (blames_misuse _) fun _ _ => blames_buildFilter _ _ _

namespace Writing

theorem blames_admitDraft (arguments : Fields) : Blames .request (admitDraft arguments) :=
  blames_bind (blames_misuse _) fun _ _ => blames_approve "db_create_earning" _ _ rfl

theorem blames_admitItem (item : Value) : Blames .request (admitItem item) := by
  unfold admitItem
  split
  · exact blames_pure _
  · exact blames_bind (blames_misuse _) fun _ _ => blames_bind (blames_misuse _) fun _ _ =>
      blames_approve "db_create_earnings_batch" _ _ rfl

theorem blames_admitItems (items : List Value) : Blames .request (admitItems items) := by
  induction items with
  | nil => exact blames_pure []
  | cons item rest ih =>
    exact blames_bind (blames_admitItem item) fun _ _ => blames_bind ih fun _ _ => blames_pure _

theorem blames_admitBatch (batch : Value) : Blames .request (admitBatch batch) :=
  blames_bind (blames_misuse _) fun _ _ => blames_admitItems _

theorem blames_admitChange {α : Type} {event : String} (stem : String) (id : Value)
    (check : Fields → Check.Verdict α) (named : Fields) (names : event = stem ++ "_invalid") :
    Blames .request (admitChange id check named event) :=
  blames_bind (blames_admitId stem id names) fun _ _ =>
    blames_bind (blames_approve stem _ _ names) fun _ _ => blames_pure _

end Writing

/-! ## Work behind the check of a request -/

variable (env : Environment) (store : Store)

namespace Reading

theorem blames_queryFilter (f : Filter) : Blames .session (queryFilter env store f) :=
  blames_bind (blames_readOutcome "db_query_earnings" _ _ _ rfl) fun _ _ =>
    blames_bind (blames_log _ _ (by decide)) fun _ _ => blames_pure _

theorem blames_countFilter (f : Filter) (withCursor : Bool) :
    Blames .session (countFilter env store f withCursor) :=
  blames_readOutcome "db_count_earnings" _ _ _ rfl

/-- A page that cannot be shown is no failure of the session, and calls for no alarm. -/
theorem blames_pageOfFilter (f : Filter) : Blames .session (pageOfFilter env store f) := by
  refine blames_bind (blames_queryFilter env store f) fun found _ => ?_
  refine blames_bind (blames_countFilter env store f true) fun total _ => ?_
  refine blames_bind ?_ fun shown _ => blames_pure _
  unfold receipts
  cases found.mapM Earning.receipt with
  | ok shown => exact blames_pure shown
  | error issues => exact follows_of_foreign rfl fun _ same => nomatch same

theorem blames_totalFilter (f : Filter) : Blames .session (totalFilter env store f) :=
  blames_readOutcome "db_total_amount" _ _ _ rfl

/-- The course of a step that reads the store. -/
def readCourse {α : Type} (outcome : Except Fault α) : Except Origin α :=
  outcome.mapError fun _ => .session

theorem follows_readOutcome {α : Type} {event : String} (stem : String)
    (outcome : Except Fault α) (message : String) (context : Fields) (names : event = stem ++ "_error") :
    Follows (readCourse outcome) (readOutcome outcome message event context) := by
  have same : (readOutcome outcome message event context).blame .session = readCourse outcome := by
    rw [blame, outcome_readOutcome]
    cases outcome <;> rfl
  rw [← same]
  exact blames_readOutcome stem outcome message context names

/-- The course of looking an identifier up; one that is no key is in no table. -/
def getCourse (id : Value) : Except Origin (Option Earning) := do
  let n ← (admitId id "db_get_earning_invalid").blame .request
  if isKey n then readCourse (earningAt env store n) else pure none

theorem follows_get (id : Value) : Follows (getCourse env store id) (get env store id) := by
  refine Follows.bind (blames_admitId "db_get_earning" id rfl) fun n _ => ?_
  split
  · have reads := follows_readOutcome "db_get_earning" (earningAt env store n)
      "Ошибка получения начисления" [("earning_id", .int n)] rfl
    exact reads.logged _ _ (by decide)
  · exact follows_pure none

/-- The course of looking an identifier up that must be there. -/
def getOrFailCourse (id : Value) : Except Origin Earning := do
  match ← getCourse env store id with
  | some earning => pure earning
  | none => throw .unknown

theorem follows_getOrFail (id : Value) :
    Follows (getOrFailCourse env store id) (getOrFail env store id) := by
  refine Follows.bind (follows_get env store id) fun found _ => ?_
  cases found with
  | some earning => exact follows_pure earning
  | none => exact blames_notFound "db_earning" id rfl

/-- The course of the sums of miners: the owner is checked, and the sums are read. -/
def totalsByMinerCourse (pool challenge miner : Value) : Except Origin (List (Int × Int)) := do
  let f ← (buildFilter env.limits none
    [("pool_id", pool), ("challenge_id", challenge), ("miner_id", miner)]).blame .request
  readCourse ((rows env store (selectionOf f false)).bind minerSums)

theorem follows_totalsByMiner (pool challenge miner : Value) :
    Follows (totalsByMinerCourse env store pool challenge miner)
      (totalsByMiner env store pool challenge miner) := by
  refine Follows.bind (blames_buildFilter _ _ _) fun f _ => ?_
  have reads := follows_readOutcome "db_totals_by_miner"
    ((rows env store (selectionOf f false)).bind minerSums) "Ошибка расчета сумм по майнерам"
    [("pool_id", pool), ("challenge_id", challenge), ("miner_id", miner)] rfl
  exact reads.logged _ _ (by decide)

/-- The course of all sums of a filter. -/
def totalsOfFilterCourse (f : Filter) : Except Origin Totals := do
  let number (asked : Option Key) := Value.ofInt? (asked.map Key.val)
  let sums ← totalsByMinerCourse env store (number f.pool) (number f.challenge) (number f.miner)
  let count ← (countFilter env store f false).blame .session
  let total ← (totalFilter env store f).blame .session
  pure ⟨count, total, sums⟩

theorem follows_totalsOfFilter (f : Filter) :
    Follows (totalsOfFilterCourse env store f) (totalsOfFilter env store f) := by
  refine Follows.bind (follows_totalsByMiner env store _ _ _) fun sums _ => ?_
  refine Follows.bind (blames_countFilter env store f false) fun count _ => ?_
  exact Follows.bind (blames_totalFilter env store f) fun total _ => follows_pure _

end Reading

namespace Writing

theorem blames_createDraft (draft : Draft) :
    Blames .session (createDraft env store draft).audited := by
  unfold createDraft
  split
  · exact blames_writeFault _ _ _ _ ⟨"db_create_earning", rfl⟩
  · split
    · exact blames_bind (blames_log _ _ (by decide)) fun _ _ => blames_pure _
    · exact follows_of_foreign rfl fun _ same => nomatch same

theorem blames_createDrafts (drafts : List Draft) :
    Blames .session (createDrafts env store drafts).audited := by
  unfold createDrafts
  split
  · exact blames_bind (blames_log _ _ (by decide)) fun _ _ => blames_pure _
  · split
    · exact blames_writeFault _ _ _ _ ⟨"db_create_earnings_batch", rfl⟩
    · exact blames_bind (blames_log _ _ (by decide)) fun _ _ => blames_pure _

/-- Whether a change gets as far as the stamp of its row, and the calendar has none left. -/
def outOfStamps (id : Int) : Bool :=
  match strike env.injection .execute, store with
  | .ok _, some table =>
    match (table.find? id).map Earning.ofRow with
    | some (.ok earning) => (nextStamp? env.now (some earning.updated)).isNone
    | _ => false
  | _, _ => false

/-- Where a change comes from that was halted: a fault is one of the session, unless the
calendar has ended. -/
def Halt.origin (ended : Bool) : Halt → Origin
  | .unknown => .unknown
  | .outOfRange _ _ => .range
  | .fault _ _ => if ended then .calendar else .session

/-- The course of a change; an identifier that is no key is in no table. -/
def changeCourse (id : Int) (compute : Int → Int) : Except Origin Earning :=
  if isKey id then
    match session (changeStore env id compute) store with
    | (_, .error halt) => throw (halt.origin (outOfStamps env store id))
    | (_, .ok made) => pure made.earning
  else throw .unknown

theorem follows_reportHalt (ended : Bool) (id : Int) (event message : String) (halt : Halt) :
    Follows (throw (halt.origin ended)) (reportHalt id event message halt : Audited Earning) := by
  cases halt with
  | unknown => exact (blames_notFound event _ rfl).follows rfl
  | outOfRange old new =>
    have loud : Origin.range.Sounds
        ((reportHalt id event message (.outOfRange old new) : Audited Earning).shows
          Entry.alarm?) := by
      refine ⟨event, ?_⟩
      rw [reportHalt, shows_bind_of_ok rfl, shows_log, shows_report,
        Entry.alarm?_of_loud _ _ _ (by decide), Entry.alarm?_of_loud _ _ _ (by decide)]
      rfl
    obtain ⟨failure, failed⟩ := outcome_reportHalt id event message (.outOfRange old new)
    refine (blames_of (fun done => ?_) fun _ => loud).follows failed
    rw [failed] at done
    cases done
  | fault fault amount =>
    refine (blames_writeFault fault amount message [("earning_id", .int id)] ?_).follows
      (outcome_writeFault ..)
    cases ended <;> exact ⟨event, rfl⟩

theorem follows_change (id : Int) (compute : Int → Int) (event message : String) :
    Follows (changeCourse env store id compute)
      (change env store id compute event message).audited := by
  unfold change changeCourse
  split
  · rcases session (changeStore env id compute) store with ⟨left, halt | made⟩
    · exact follows_reportHalt _ id event message halt
    · have noted : Blames .session (changedEntry made >>= fun _ => pure made.earning) :=
        blames_bind (blames_log _ _ (by decide)) fun _ _ => blames_pure _
      exact noted
  · exact (blames_notFound event _ rfl).follows rfl

/-- Work behind a check follows the course behind it. -/
theorem follows_afterCheck {α β : Type} {checked : Audited α} {next : α → Written β}
    {rest : α → Except Origin β} (here : Blames .request checked)
    (later : ∀ a, checked.outcome = .ok a → Follows (rest a) (next a).audited) :
    Follows (checked.blame .request >>= rest) (afterCheck store checked next).audited := by
  have same : (afterCheck store checked next).audited =
      checked >>= fun a => (next a).audited := by
    show _ = checked.andThen _
    unfold afterCheck andThen
    cases checked.outcome <;> rfl
  rw [same]
  exact Follows.bind here later

/-- The course of a new earning: its draft is checked, and then stored. -/
def createCourse (arguments : Fields) : Except Origin Earning := do
  let draft ← (admitDraft arguments).blame .request
  (createDraft env store draft).audited.blame .session

/-- The course of a batch. -/
def createBatchCourse (batch : Value) : Except Origin (List Earning) := do
  let drafts ← (admitBatch batch).blame .request
  (createDrafts env store drafts).audited.blame .session

/-- The course of setting an amount. -/
def updateAmountCourse (id amount : Value) : Except Origin Earning := do
  let found ← (admitChange id checkAmount [("amount", amount)]
    "db_update_earning_invalid").blame .request
  changeCourse env store found.1 fun _ => found.2.val

/-- The course of moving an amount. -/
def addAmountCourse (id delta : Value) : Except Origin Earning := do
  let found ← (admitChange id checkDelta [("delta", delta)]
    "db_adjust_earning_invalid").blame .request
  changeCourse env store found.1 fun old => old + found.2

end Writing

/-! ## Calls -/

/-- A reply without the store. -/
def Reply.audited (reply : Reply) : Audited Answer := ⟨reply.entries, reply.outcome⟩

namespace Call

/-- **The course of a call**: its request is checked, and then the session does its work. -/
def course : Call → Except Origin Answer
  | create arguments => .earning <$> createCourse env store arguments
  | createBatch batch => .earnings <$> createBatchCourse env store batch
  | get id => do
    match ← Reading.getCourse env store id with
    | some earning => pure (.earning earning)
    | none => pure .nothing
  | getOrFail id => .earning <$> Reading.getOrFailCourse env store id
  | query ready named => do
    let f ← (filterFor env "query" ready named).blame .request
    .earnings <$> (Reading.queryFilter env store f).blame .session
  | queryPage ready named => do
    let f ← (filterFor env "query_page" ready named).blame .request
    .page <$> (Reading.pageOfFilter env store f).blame .session
  | count ready withCursor named => do
    let bound ← (filterNames "count" [⟨"with_cursor", true⟩] named).blame .request
    let f ← (buildFilter env.limits ready bound.extras).blame .request
    let flag := withCursor.getD ((bound.given.get? "with_cursor").getD (.bool false))
    .number <$> (Reading.countFilter env store f flag.isSomething).blame .session
  | totalAmount ready named => do
    let f ← (filterFor env "total_amount" ready named).blame .request
    .number <$> (Reading.totalFilter env store f).blame .session
  | totalsByMiner pool challenge miner =>
    .sums <$> Reading.totalsByMinerCourse env store pool challenge miner
  | summarize ready named => do
    let f ← (filterFor env "summarize" ready named).blame .request
    .totals <$> Reading.totalsOfFilterCourse env store f
  | updateAmount id amount => .earning <$> updateAmountCourse env store id amount
  | addAmount id delta => .earning <$> addAmountCourse env store id delta

/-- A reply of an operation that writes follows the course of the operation. -/
theorem follows_writing {α : Type} {answer : α → Answer} {written : Written α}
    {course : Except Origin α} (follows : Follows course written.audited) :
    Follows (answer <$> course) (writing answer written).audited := by
  have same : (writing answer written).audited = answer <$> written.audited := by
    show _ = written.audited.andThen _
    unfold writing Reply.audited andThen
    cases written.audited.outcome with
    | error failure => rfl
    | ok a => exact congrArg (Audited.mk · _) (List.append_nil _).symm
  rw [same]
  exact follows.map answer

/-- The filter of a request is checked before its work. -/
theorem follows_request {α : Type} {answer : α → Answer} (operation : String)
    (ready : Option Filter) (named : Value) {next : Filter → Audited α}
    {rest : Filter → Except Origin α} (later : ∀ f, Follows (rest f) (next f)) :
    Follows ((filterFor env operation ready named).blame .request >>= fun f => answer <$> rest f)
      (filterFor env operation ready named >>= fun f => answer <$> next f) :=
  Follows.bind (blames_filterFor env operation ready named) fun f _ => (later f).map answer

/-- A count whose flag is given twice is misused, and follows any course. -/
theorem follows_countFor (ready : Option Filter) (withCursor : Option Value) (named : Value) :
    Follows ((Call.count ready withCursor named).course env store)
      (countFor env store ready withCursor named) := by
  refine Follows.bind (blames_misuse _) fun bound _ => ?_
  have counted : ∀ flag : Value, Follows
      ((buildFilter env.limits ready bound.extras).blame .request >>= fun f =>
        Answer.number <$> (Reading.countFilter env store f flag.isSomething).blame .session)
      (buildFilter env.limits ready bound.extras >>= fun f =>
        Answer.number <$> Reading.countFilter env store f flag.isSomething) := fun flag =>
    Follows.bind (blames_buildFilter _ _ _) fun f _ =>
      (Reading.blames_countFilter env store f flag.isSomething).map Answer.number
  cases withCursor with
  | none => exact counted _
  | some flag =>
    cases bound.given.get? "with_cursor" with
    | none => exact counted flag
    | some other => exact follows_of_foreign rfl fun _ same => nomatch same

/-- **Every call follows its course.** -/
theorem follows_course (call : Call) :
    Follows (call.course env store) (call.run env store).audited := by
  cases call with
  | create arguments =>
    exact follows_writing (follows_afterCheck store (blames_admitDraft arguments) fun draft _ =>
      blames_createDraft env store draft)
  | createBatch batch =>
    exact follows_writing (follows_afterCheck store (blames_admitBatch batch) fun drafts _ =>
      blames_createDrafts env store drafts)
  | get id =>
    refine Follows.bind (Reading.follows_get env store id) fun found _ => ?_
    cases found with
    | none => exact follows_pure _
    | some earning => exact follows_pure _
  | getOrFail id => exact (Reading.follows_getOrFail env store id).map _
  | query ready named =>
    exact follows_request env _ ready named fun f => Reading.blames_queryFilter env store f
  | queryPage ready named =>
    exact follows_request env _ ready named fun f => Reading.blames_pageOfFilter env store f
  | count ready withCursor named => exact follows_countFor env store ready withCursor named
  | totalAmount ready named =>
    exact follows_request env _ ready named fun f => Reading.blames_totalFilter env store f
  | totalsByMiner pool challenge miner =>
    exact (Reading.follows_totalsByMiner env store pool challenge miner).map _
  | summarize ready named =>
    exact follows_request env _ ready named fun f => Reading.follows_totalsOfFilter env store f
  | updateAmount id amount =>
    exact follows_writing (follows_afterCheck store
      (blames_admitChange "db_update_earning" id _ _ rfl) fun found _ =>
        follows_change env store _ _ _ _)
  | addAmount id delta =>
    exact follows_writing (follows_afterCheck store
      (blames_admitChange "db_adjust_earning" id _ _ rfl) fun found _ =>
        follows_change env store _ _ _ _)

end Call

end EarningsLedger
