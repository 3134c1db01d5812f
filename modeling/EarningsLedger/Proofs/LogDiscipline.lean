import EarningsLedger.Proofs.CallCourses
import EarningsLedger.Proofs.SoundTables

/-!
# When the log keeps to its rule

Of the origins of a failure two break the rule of the alarms.  This module finds the calls
that fail from them, on a sound table: a change that gets as far as its row and would take
the amount out of its range (`Call.Overdraws`), and one whose row carries a stamp that no
later one follows (`Call.EndsCalendar`).  Every other failure with an error of the ledger
is logged as it should be, and no answered call sounds an alarm
(`one_alarm_unless_overdrawn`).
-/

namespace EarningsLedger

open Audited Calendar Log Storage Writing

/-! ## Origins that keep to the rule -/

/-- The origins whose failures are logged as they should be. -/
def Origin.Plain (origin : Origin) : Prop := origin ≠ .range ∧ origin ≠ .calendar

/-- A course that fails from such origins only. -/
def PlainCourse {α : Type} (course : Except Origin α) : Prop :=
  ∀ origin, course = .error origin → origin.Plain

section PlainCourse

variable {α β : Type}

theorem plain_pure (a : α) : PlainCourse (pure a) := fun _ stopped => nomatch stopped

theorem plain_error {origin : Origin} (plain : origin.Plain) :
    PlainCourse (.error origin : Except Origin α) := by
  rintro _ ⟨⟩
  exact plain

theorem plain_blame {origin : Origin} (plain : origin.Plain) (audited : Audited α) :
    PlainCourse (audited.blame origin) := by
  unfold blame
  cases audited.outcome with
  | ok a => exact plain_pure a
  | error failure => exact plain_error plain

theorem plain_bind {course : Except Origin α} {rest : α → Except Origin β}
    (here : PlainCourse course) (later : ∀ a, PlainCourse (rest a)) :
    PlainCourse (course >>= rest) := by
  cases course with
  | ok a => exact later a
  | error origin => exact plain_error (here origin rfl)

theorem plain_map (f : α → β) {course : Except Origin α} (plain : PlainCourse course) :
    PlainCourse (f <$> course) := by
  cases course with
  | ok a => exact plain_pure (f a)
  | error origin => exact plain_error (plain origin rfl)

theorem plain_request : Origin.request.Plain := ⟨nofun, nofun⟩

theorem plain_session : Origin.session.Plain := ⟨nofun, nofun⟩

theorem plain_unknown : Origin.unknown.Plain := ⟨nofun, nofun⟩

theorem plain_read (outcome : Except Fault α) : PlainCourse (Reading.readCourse outcome) := by
  cases outcome with
  | ok a => exact plain_pure a
  | error fault => exact plain_error plain_session

end PlainCourse

/-! ## Changes -/

namespace Writing

variable {env : Environment} {table : Table} {id : Int} {compute : Int → Int}

/-- A change gets as far as its row. -/
def Reaches (env : Environment) (table : Table) (id : Int) (row : Row) : Prop :=
  isKey id = true ∧ strike env.injection .execute = .ok () ∧ table.find? id = some row

/-- A change would take the amount of its row out of its range. -/
def LeavesRange (env : Environment) (table : Table) (id : Int) (compute : Int → Int) : Prop :=
  ∃ row, Reaches env table id row ∧ isAmount (compute row.cells.amount) = false

/-- A change has computed an amount for a row whose stamp no later one follows. -/
def LeavesCalendar (env : Environment) (table : Table) (id : Int) (compute : Int → Int) : Prop :=
  ∃ row earning, Reaches env table id row ∧ isAmount (compute row.cells.amount) = true ∧
    Earning.ofRow row = .ok earning ∧ nextStamp? env.now (some earning.updated) = none

/-- A change that does not get as far as a row fails from a plain origin. -/
theorem plain_of_unreached (compute : Int → Int) (none : ∀ row, ¬ Reaches env table id row) :
    PlainCourse (changeCourse env (some table) id compute) := by
  unfold changeCourse
  cases key : isKey id with
  | false => exact plain_error plain_unknown
  | true =>
    simp only [if_true]
    cases struck : strike env.injection .execute with
    | error fault =>
      have halted : session (changeStore env id compute) (some table) =
          (some table, .error (.fault fault .null)) := by
        simp only [session, changeStore, struck]
      have going : outOfStamps env (some table) id = false := by
        simp only [outOfStamps, struck]
      rw [halted, going]
      exact plain_error plain_session
    | ok executes =>
      cases found : table.find? id with
      | some row => exact absurd ⟨key, struck, found⟩ (none row)
      | none =>
        have halted : session (changeStore env id compute) (some table) =
            (some table, .error .unknown) := by
          simp only [session, changeStore, struck, changeRow, found]
        rw [halted]
        exact plain_error plain_unknown

/-- Only faults keep a computed change from being written. -/
theorem fault_of_writeChange {amended : Earning} {halt : Halt}
    (failed : (writeChange env table amended).2 = .error halt) :
    ∃ fault amount, halt = .fault fault amount := by
  unfold writeChange at failed
  split at failed
  · cases failed
    exact ⟨_, _, rfl⟩
  · split at failed
    · cases failed
    · cases failed
      exact ⟨_, _, rfl⟩

/-- The course of a change that gets as far as its row. -/
theorem changeCourse_of_row (compute : Int → Int) {row : Row} {earning : Earning}
    (reaches : Reaches env table id row) (read : Earning.ofRow row = .ok earning) :
    (isAmount (compute earning.amount) = false ∧
      changeCourse env (some table) id compute = .error .range) ∨
    (isAmount (compute earning.amount) = true ∧
      nextStamp? env.now (some earning.updated) = none ∧
      changeCourse env (some table) id compute = .error .calendar) ∨
    (isAmount (compute earning.amount) = true ∧
      nextStamp? env.now (some earning.updated) ≠ none ∧
      PlainCourse (changeCourse env (some table) id compute)) := by
  obtain ⟨key, struck, found⟩ := reaches
  have ends : outOfStamps env (some table) id =
      (nextStamp? env.now (some earning.updated)).isNone := by
    simp only [outOfStamps, struck, found, Option.map_some, read]
  unfold changeCourse
  rw [if_pos key, ends]
  cases amount : isAmount (compute earning.amount) with
  | false =>
    have halted : session (changeStore env id compute) (some table) =
        (some table, .error (.outOfRange earning.amount (compute earning.amount))) := by
      simp only [session, changeStore, struck, changeRow, found, read, changed, amount]
      rfl
    rw [halted]
    exact .inl ⟨rfl, rfl⟩
  | true =>
    cases later : nextStamp? env.now (some earning.updated) with
    | none =>
      have halted : session (changeStore env id compute) (some table) =
          (some table, .error (.fault .badDate (.int (compute earning.amount)))) := by
        simp only [session, changeStore, struck, changeRow, found, read, changed, amount, later]
        rfl
      rw [halted]
      exact .inr (.inl ⟨rfl, rfl, rfl⟩)
    | some stamp =>
      refine .inr (.inr ⟨rfl, Option.some_ne_none stamp, ?_⟩)
      rcases ended : session (changeStore env id compute) (some table) with ⟨left, halt | made⟩
      · -- behind the stamp only the commit and the driver are left to fail
        have failed := error_of_session ended
        have computed := changed_eq_ok_iff.mpr ⟨amount, stamp, later, rfl⟩
        simp only [changeStore, struck, changeRow, found, read, computed] at failed
        split at failed
        · next left' refused written =>
          cases failed
          have blocked := fault_of_writeChange (congrArg Prod.snd written)
          obtain ⟨fault, given, rfl⟩ := blocked
          exact plain_error plain_session
        · cases failed
      · exact plain_pure _

/-- Which changes of a sound table fail from the two origins that are not plain. -/
theorem changeCourse_origins (env : Environment) (sound : table.Sound) (id : Int)
    (compute : Int → Int) :
    (changeCourse env (some table) id compute = .error .range ↔
      LeavesRange env table id compute) ∧
    (changeCourse env (some table) id compute = .error .calendar ↔
      LeavesCalendar env table id compute) := by
  by_cases reached : ∃ row, Reaches env table id row
  · obtain ⟨row, reaches⟩ := reached
    obtain ⟨_, _, -, read⟩ := sound.ofRow (Table.find?_eq_some_iff.mp reaches.2.2).1
    have only : ∀ {other}, Reaches env table id other → other = row := fun also =>
      Option.some.inj (also.2.2.symm.trans reaches.2.2)
    have leaves : LeavesRange env table id compute ↔
        isAmount (compute row.cells.amount) = false := by
      constructor
      · rintro ⟨other, also, amount⟩
        rw [only also] at amount
        exact amount
      · exact fun amount => ⟨row, reaches, amount⟩
    have ends : ∀ {earning}, Earning.ofRow row = .ok earning →
        (LeavesCalendar env table id compute ↔ isAmount (compute row.cells.amount) = true ∧
          nextStamp? env.now (some earning.updated) = none) := by
      intro earning read
      constructor
      · rintro ⟨other, shown, also, amount, same, last⟩
        obtain rfl := only also
        obtain rfl := Except.ok.inj (same.symm.trans read)
        exact ⟨amount, last⟩
      · exact fun whole => ⟨row, earning, reaches, whole.1, read, whole.2⟩
    rw [leaves, ends read]
    rcases changeCourse_of_row compute reaches read with
      ⟨amount, course⟩ | ⟨amount, last, course⟩ | ⟨amount, more, plain⟩
    · rw [course]
      exact ⟨iff_of_true rfl amount, by simp [amount]⟩
    · rw [course]
      exact ⟨by simp [amount], iff_of_true rfl ⟨amount, last⟩⟩
    · exact ⟨iff_of_false (fun course => (plain _ course).1 rfl) (by simp [amount]),
        iff_of_false (fun course => (plain _ course).2 rfl) fun whole => more whole.2⟩
  · have none : ∀ row, ¬ Reaches env table id row := fun row reaches => reached ⟨row, reaches⟩
    have plain := plain_of_unreached compute none
    refine ⟨iff_of_false (fun course => (plain _ course).1 rfl) ?_,
      iff_of_false (fun course => (plain _ course).2 rfl) ?_⟩
    · rintro ⟨row, reaches, -⟩
      exact none row reaches
    · rintro ⟨row, -, reaches, -⟩
      exact none row reaches

end Writing

/-! ## Calls -/

namespace Call

variable {env : Environment} {table : Table} {call : Call}

/-- A change that would take the amount of its row out of its range. -/
def Overdraws (env : Environment) (table : Table) (call : Call) : Prop :=
  ∃ id compute, call.Asks id compute ∧ LeavesRange env table id compute

/-- A change of a row whose stamp no later one follows. -/
def EndsCalendar (env : Environment) (table : Table) (call : Call) : Prop :=
  ∃ id compute, call.Asks id compute ∧ LeavesCalendar env table id compute

/-- A call asks for one change at most. -/
theorem Asks.unique {id other : Int} {compute again : Int → Int} (asks : call.Asks id compute)
    (also : call.Asks other again) : other = id ∧ again = compute := by
  cases asks with
  | update _ amount =>
    generalize asked : Call.updateAmount (.int id) (.int amount.val) = call at also
    cases also with
    | update _ amount' =>
      injection asked with first second
      injection first with first
      injection second with second
      rw [first, second]
      exact ⟨rfl, rfl⟩
    | add => cases asked
  | add _ delta =>
    cases also
    exact ⟨rfl, rfl⟩

/-- The course of an admitted request for a change is that of the change. -/
theorem course_of_admitted {α : Type} {check : Fields → Check.Verdict α} {named : Fields}
    {event : String} {id : Int} {a : α} {bound : Binding.Bound} (checked : check named = .ok a)
    (fits : checkSignature.bind [.null, .null] named = .ok bound)
    (rest : Int × α → Except Origin Earning) :
    ((admitChange (.int id) check named event).blame .request >>= rest) = rest (id, a) := by
  have approved : (approve check event named).outcome = .ok a :=
    outcome_approve_eq_ok_iff.mpr ⟨⟨bound, fits⟩, checked⟩
  have admitted : (admitChange (.int id) check named event).outcome = .ok (id, a) :=
    outcome_bind_eq_ok_iff.mpr ⟨id, rfl, outcome_bind_eq_ok_iff.mpr ⟨a, approved, rfl⟩⟩
  rw [blame, admitted]
  rfl

/-- A call that asks for a change has the course of the change. -/
theorem course_of_asks {id : Int} {compute : Int → Int} (asks : call.Asks id compute) :
    call.course env (some table) = .earning <$> changeCourse env (some table) id compute := by
  cases asks with
  | update _ amount =>
    exact congrArg (Answer.earning <$> ·)
      (course_of_admitted (checkAmount_eq_ok_iff.mpr rfl) rfl _)
  | add _ delta low high =>
    exact congrArg (Answer.earning <$> ·)
      (course_of_admitted (checkDelta_eq_ok_iff.mpr ⟨rfl, low, high⟩) rfl _)

/-- A request for a change that is not admitted fails from a plain origin. -/
theorem plain_of_refused {α : Type} {id : Value} {check : Fields → Check.Verdict α}
    {named : Fields} {event : String} {rest : Int × α → Except Origin Earning}
    (refused : ∀ found, (admitChange id check named event).outcome ≠ .ok found) :
    PlainCourse ((admitChange id check named event).blame .request >>= rest) := by
  unfold blame
  cases ended : (admitChange id check named event).outcome with
  | ok found => exact absurd ended (refused found)
  | error failure => exact plain_error plain_request

theorem plain_get (env : Environment) (store : Store) (id : Value) :
    PlainCourse (Reading.getCourse env store id) := by
  refine plain_bind (plain_blame plain_request _) fun n => ?_
  split
  · exact plain_read _
  · exact plain_pure none

theorem plain_totalsByMiner (env : Environment) (store : Store) (pool challenge miner : Value) :
    PlainCourse (Reading.totalsByMinerCourse env store pool challenge miner) :=
  plain_bind (plain_blame plain_request _) fun _ => plain_read _

/-- A call either asks for a change, or fails from plain origins only. -/
theorem asks_or_plain (env : Environment) (store : Store) (call : Call) :
    (∃ id compute, call.Asks id compute) ∨ PlainCourse (call.course env store) := by
  cases call with
  | create arguments =>
    exact .inr (plain_map _ (plain_bind (plain_blame plain_request _) fun _ =>
      plain_blame plain_session _))
  | createBatch batch =>
    exact .inr (plain_map _ (plain_bind (plain_blame plain_request _) fun _ =>
      plain_blame plain_session _))
  | get id =>
    refine .inr (plain_bind (plain_get env store id) fun found => ?_)
    cases found <;> exact plain_pure _
  | getOrFail id =>
    refine .inr (plain_map _ (plain_bind (plain_get env store id) fun found => ?_))
    cases found with
    | none => exact plain_error plain_unknown
    | some earning => exact plain_pure earning
  | query ready named =>
    exact .inr (plain_bind (plain_blame plain_request _) fun _ =>
      plain_map _ (plain_blame plain_session _))
  | queryPage ready named =>
    exact .inr (plain_bind (plain_blame plain_request _) fun _ =>
      plain_map _ (plain_blame plain_session _))
  | count ready withCursor named =>
    exact .inr (plain_bind (plain_blame plain_request _) fun _ =>
      plain_bind (plain_blame plain_request _) fun _ => plain_map _ (plain_blame plain_session _))
  | totalAmount ready named =>
    exact .inr (plain_bind (plain_blame plain_request _) fun _ =>
      plain_map _ (plain_blame plain_session _))
  | totalsByMiner pool challenge miner =>
    exact .inr (plain_map _ (plain_totalsByMiner env store pool challenge miner))
  | summarize ready named =>
    exact .inr (plain_bind (plain_blame plain_request _) fun _ => plain_map _
      (plain_bind (plain_totalsByMiner env store _ _ _) fun _ =>
        plain_bind (plain_blame plain_session _) fun _ =>
          plain_bind (plain_blame plain_session _) fun _ => plain_pure _))
  | updateAmount id amount =>
    by_cases admitted : ∃ found, (admitChange id checkAmount [("amount", amount)]
        "db_update_earning_invalid").outcome = .ok found
    · obtain ⟨⟨n, a⟩, passed⟩ := admitted
      obtain ⟨rfl, checked⟩ := admitChange_ok passed
      obtain rfl := checkAmount_eq_ok_iff.mp checked
      exact .inl ⟨n, _, .update n a⟩
    · exact .inr (plain_map _ (plain_of_refused fun found passed => admitted ⟨found, passed⟩))
  | addAmount id delta =>
    by_cases admitted : ∃ found, (admitChange id checkDelta [("delta", delta)]
        "db_adjust_earning_invalid").outcome = .ok found
    · obtain ⟨⟨n, d⟩, passed⟩ := admitted
      obtain ⟨rfl, checked⟩ := admitChange_ok passed
      obtain ⟨rfl, low, high⟩ := checkDelta_eq_ok_iff.mp checked
      exact .inl ⟨n, _, .add n d low high⟩
    · exact .inr (plain_map _ (plain_of_refused fun found passed => admitted ⟨found, passed⟩))

/-- **Which calls fail from the two origins that are not plain.** -/
theorem course_origins (env : Environment) (sound : table.Sound) (call : Call) :
    (call.course env (some table) = .error .range ↔ call.Overdraws env table) ∧
    (call.course env (some table) = .error .calendar ↔ call.EndsCalendar env table) := by
  by_cases asked : ∃ id compute, call.Asks id compute
  · obtain ⟨id, compute, asks⟩ := asked
    have same : ∀ origin, call.course env (some table) = .error origin ↔
        changeCourse env (some table) id compute = .error origin := by
      intro origin
      rw [course_of_asks asks]
      cases changeCourse env (some table) id compute with
      | ok earning => exact iff_of_false nofun nofun
      | error other =>
        show (Except.error other : Except Origin Answer) = _ ↔ _
        rw [Except.error.injEq, Except.error.injEq]
    obtain ⟨leaves, ends⟩ := changeCourse_origins env sound id compute
    rw [same, same, leaves, ends]
    constructor
    · constructor
      · exact fun left => ⟨id, compute, asks, left⟩
      · rintro ⟨_, _, also, left⟩
        obtain ⟨rfl, rfl⟩ := asks.unique also
        exact left
    · constructor
      · exact fun left => ⟨id, compute, asks, left⟩
      · rintro ⟨_, _, also, left⟩
        obtain ⟨rfl, rfl⟩ := asks.unique also
        exact left
  · have plain := (asks_or_plain env (some table) call).resolve_left asked
    refine ⟨iff_of_false (fun course => (plain _ course).1 rfl) ?_,
      iff_of_false (fun course => (plain _ course).2 rfl) ?_⟩
    · rintro ⟨id, compute, asks, -⟩
      exact asked ⟨id, compute, asks⟩
    · rintro ⟨id, compute, asks, -⟩
      exact asked ⟨id, compute, asks⟩

end Call

/-- **One alarm for a failure, unless an amount leaves its range or the calendar ends.**
Behind any run and in any environment, an answered call sounds no alarm.  A call that fails
with an error of the ledger fails from one origin, and sounds exactly one alarm, an error
for a failure of the session and a warning for a refusal, unless it would take the amount
of a row out of its range, or its row carries a stamp that no later one follows. -/
theorem one_alarm_unless_overdrawn (trigger : Bool) (turns : List Turn) (turn : Turn) :
    ∃ before, storeAfter (freshStore trigger) turns = some before ∧
      (∀ answer, (turn.reply (some before)).outcome = .ok answer →
        alarmsOf (turn.reply (some before)).entries = []) ∧
      ∀ error, (turn.reply (some before)).outcome = .error (.ledger error) →
        ∃ origin, turn.call.course turn.env (some before) = .error origin ∧
          origin.Sounds (alarmsOf (turn.reply (some before)).entries) ∧
          (Disciplined origin (alarmsOf (turn.reply (some before)).entries) ↔
            ¬ turn.call.Overdraws turn.env before ∧ ¬ turn.call.EndsCalendar turn.env before) := by
  obtain ⟨before, left, sound⟩ := sound_after trigger turns
  have follows := Call.follows_course turn.env (some before) turn.call
  refine ⟨before, left, fun answer done => (follows.done done).2, fun error failed => ?_⟩
  obtain ⟨origin, stopped, sounds⟩ := follows.failed failed
  refine ⟨origin, stopped, sounds, sounds.disciplined_iff.trans ?_⟩
  obtain ⟨overdraws, ends⟩ := Call.course_origins turn.env sound turn.call
  rw [← overdraws, ← ends, stopped]
  simp only [ne_eq, Except.error.injEq]

/-- A look-up that is struck, one of an identifier that nobody has, and one that is
answered, behind one new earning: an error, a warning and no alarm. -/
theorem lookups_sound_one_alarm_at_most :
    let turns : List Turn := [⟨.usual ⟨0, by decide⟩, .create [("miner_id", .int 5),
      ("pool_id", .int 6), ("challenge_id", .int 7), ("amount", .int 5)]⟩]
    let calm : Environment := .usual ⟨1, by decide⟩
    let struck : Turn := ⟨{ calm with injection := some ⟨.get, .full⟩ }, .getOrFail (.int 1)⟩
    let missing : Turn := ⟨calm, .getOrFail (.int 2)⟩
    let held : Turn := ⟨calm, .getOrFail (.int 1)⟩
    ∃ before, storeAfter (freshStore true) turns = some before ∧
      Disciplined .session (alarmsOf (struck.reply (some before)).entries) ∧
      Disciplined .unknown (alarmsOf (missing.reply (some before)).entries) ∧
      alarmsOf (held.reply (some before)).entries = [] := by
  intro turns calm struck missing held
  have asksNothing : ∀ (id : Value) (env : Environment) (table : Table),
      ¬ (Call.getOrFail id).Overdraws env table ∧
        ¬ (Call.getOrFail id).EndsCalendar env table := by
    intro id env table
    constructor
    · rintro ⟨_, _, asks, -⟩
      cases asks
    · rintro ⟨_, _, asks, -⟩
      cases asks
  obtain ⟨before, left, -, fails⟩ := one_alarm_unless_overdrawn true turns struck
  obtain rfl := Option.some.inj left
  obtain ⟨_, same, -, refuses⟩ := one_alarm_unless_overdrawn true turns missing
  obtain rfl := Option.some.inj same
  obtain ⟨_, same, answers, -⟩ := one_alarm_unless_overdrawn true turns held
  obtain rfl := Option.some.inj same
  obtain ⟨origin, stopped, -, once⟩ := fails _ rfl
  cases stopped
  obtain ⟨origin, stopped, -, alone⟩ := refuses _ rfl
  cases stopped
  exact ⟨_, rfl, once.mpr (asksNothing ..), alone.mpr (asksNothing ..), answers _ rfl⟩

/-- Ten taken from an amount of five is refused with a warning, and then reported as an
error: whatever its origin is taken to be, the log has not kept to the rule. -/
theorem overdrawn_change_sounds_twice :
    let turns : List Turn := [⟨.usual ⟨0, by decide⟩, .create [("miner_id", .int 1),
      ("pool_id", .int 1), ("challenge_id", .int 1), ("amount", .int 5)]⟩]
    let turn : Turn := ⟨.usual ⟨1, by decide⟩, .addAmount (.int 1) (.int (-10))⟩
    let reply := turn.reply (storeAfter (freshStore false) turns)
    reply.outcome = .error (.ledger (.overflow (.int (-5))
        (.text (LedgerError.overflow (.int (-5)) .null).message))) ∧
      ∀ origin, ¬ Disciplined origin (alarmsOf reply.entries) := by
  intro turns turn reply
  have twice : (alarmsOf reply.entries).length = 2 := by decide +kernel
  refine ⟨rfl, ?_⟩
  rintro origin ⟨alarm, single, -⟩
  rw [single] at twice
  cases twice

end EarningsLedger
