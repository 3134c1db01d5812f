import EarningsLedger.Proofs.LoggedEntries

/-!
# Alarms of failed calls

An entry of the log at the level of a warning or above is an alarm.  A failed call should
sound exactly one: a warning when the ledger itself refuses the call, an error when the
session or the driver fails it.

The `Origin` of a failure says where it comes from, and `Origin.Sounds` which alarms the
ledger sounds for it.  They keep to the rule but for two origins
(`Origin.Sounds.disciplined_iff`): an amount that would leave its range is refused with a
warning inside the session, and the error that it is refused with is then reported once
more, as if the session had failed; and the end of the calendar is reported as a failure
of the session as well.

The course of an operation is the operation without its log, with origins for failures.
An operation that `Follows` its course is quiet while it is answered, and sounds the alarms
of the origin when it fails; chains follow their courses step by step.
-/

namespace EarningsLedger

open Audited Log Storage

/-! ## Alarms and origins -/

/-- An entry that calls for attention: its level and its event. -/
structure Alarm where
  level : Level
  event : String
  deriving DecidableEq, Repr

/-- The alarm that an entry sounds, when it is at the level of a warning or above. -/
def Log.Entry.alarm? (entry : Entry) : Option Alarm :=
  if Level.warning.number ≤ entry.level.number then some ⟨entry.level, entry.event⟩ else none

/-- An entry at the level of a warning or above that begins with its event sounds it. -/
theorem Log.Entry.alarm?_of_loud {level : Level} (message event : String) (fields : Fields)
    (loud : Level.warning.number ≤ level.number) :
    Entry.alarm? ⟨level, message, eventField event :: fields⟩ = some ⟨level, event⟩ := by
  rw [Entry.alarm?, if_pos loud]
  rfl

/-- The alarms of a log, in order. -/
def alarmsOf (entries : List Entry) : List Alarm := entries.filterMap Entry.alarm?

/-- Where the failure of a call comes from. -/
inductive Origin where
  /-- The data of the request, or an identifier that is no integer. -/
  | request
  /-- An identifier that no earning has. -/
  | unknown
  /-- An amount that would leave its range. -/
  | range
  /-- A stamp that would lie behind the end of the calendar. -/
  | calendar
  /-- The session of the database, or its driver. -/
  | session
  deriving DecidableEq, Repr

namespace Origin

/-- The origins for which the ledger itself refuses a call. -/
def Refuses (origin : Origin) : Prop := origin = request ∨ origin = unknown ∨ origin = range

/-- The alarms that a failure of an origin sounds. -/
def Sounds : Origin → List Alarm → Prop
  | request, alarms => ∃ stem, alarms = [⟨.warning, stem ++ "_invalid"⟩]
  | unknown, alarms => ∃ stem, alarms = [⟨.warning, stem ++ "_not_found"⟩]
  | range, alarms =>
    ∃ stem, alarms = [⟨.warning, stem ++ "_overflow"⟩, ⟨.error, stem ++ "_error"⟩]
  | calendar, alarms => ∃ stem, alarms = [⟨.error, stem ++ "_error"⟩]
  | session, alarms => ∃ stem, alarms = [⟨.error, stem ++ "_error"⟩]

end Origin

/-- The rule: one alarm, which is an error of an event that ends in that word exactly for
a failure of the session, and a warning exactly for a refusal. -/
def Disciplined (origin : Origin) (alarms : List Alarm) : Prop :=
  ∃ alarm, alarms = [alarm] ∧
    ((alarm.level = .error ∧ ∃ stem, alarm.event = stem ++ "_error") ↔ origin = .session) ∧
    (alarm.level = .warning ↔ origin.Refuses)

/-- What is sounded keeps to the rule unless an amount left its range or the calendar
ended. -/
theorem Origin.Sounds.disciplined_iff {origin : Origin} {alarms : List Alarm}
    (sounds : origin.Sounds alarms) :
    Disciplined origin alarms ↔ origin ≠ .range ∧ origin ≠ .calendar := by
  cases origin with
  | request =>
    obtain ⟨stem, rfl⟩ := sounds
    exact iff_of_true ⟨_, rfl, by simp, by simp [Refuses]⟩ (by simp)
  | unknown =>
    obtain ⟨stem, rfl⟩ := sounds
    exact iff_of_true ⟨_, rfl, by simp, by simp [Refuses]⟩ (by simp)
  | range =>
    obtain ⟨stem, rfl⟩ := sounds
    refine iff_of_false ?_ (by simp)
    rintro ⟨alarm, single, -⟩
    cases single
  | calendar =>
    obtain ⟨stem, rfl⟩ := sounds
    refine iff_of_false ?_ (by simp)
    rintro ⟨alarm, single, blamed, -⟩
    cases single
    cases blamed.mp ⟨rfl, stem, rfl⟩
  | session =>
    obtain ⟨stem, rfl⟩ := sounds
    exact iff_of_true ⟨_, rfl, iff_of_true ⟨rfl, stem, rfl⟩ rfl, by simp [Refuses]⟩ (by simp)

/-! ## Courses -/

/-- An operation that is quiet while it is answered, and when it fails with an error of the
ledger sounds the alarms of where its course fails. -/
structure Follows {α : Type} (course : Except Origin α) (audited : Audited α) : Prop where
  done : ∀ {a : α}, audited.outcome = .ok a →
    course = .ok a ∧ audited.shows Entry.alarm? = []
  failed : ∀ {error : LedgerError}, audited.outcome = .error (.ledger error) →
    ∃ origin, course = .error origin ∧ origin.Sounds (audited.shows Entry.alarm?)

/-- The course of an operation whose failures all have one origin. -/
def Audited.blame {α : Type} (origin : Origin) (audited : Audited α) : Except Origin α :=
  audited.outcome.mapError fun _ => origin

/-- An operation whose failures sound the alarms of one origin. -/
def Blames {α : Type} (origin : Origin) (audited : Audited α) : Prop :=
  Follows (audited.blame origin) audited

section Courses

variable {α β : Type} {origin : Origin}

/-- The steps of a chain follow the steps of a course. -/
theorem Follows.bind {first : Audited α} {next : α → Audited β} {course : Except Origin α}
    {rest : α → Except Origin β} (here : Follows course first)
    (later : ∀ a, first.outcome = .ok a → Follows (rest a) (next a)) :
    Follows (course >>= rest) (first >>= next) := by
  cases ended : first.outcome with
  | error failure =>
    refine ⟨fun done => ?_, fun failed => ?_⟩
    · rw [outcome_bind_of_error ended] at done
      cases done
    · rw [outcome_bind_of_error ended] at failed
      cases failed
      obtain ⟨origin, stopped, sounds⟩ := here.failed ended
      refine ⟨origin, ?_, ?_⟩
      · rw [stopped]
        rfl
      · rw [shows_bind_of_error ended]
        exact sounds
  | ok a =>
    obtain ⟨passed, quiet⟩ := here.done ended
    have whole : (first >>= next).shows Entry.alarm? = (next a).shows Entry.alarm? := by
      rw [shows_bind_of_ok ended, quiet, List.nil_append]
    have same : (course >>= rest) = rest a := by
      rw [passed]
      rfl
    refine ⟨fun done => ?_, fun failed => ?_⟩
    · rw [outcome_bind_of_ok ended] at done
      rw [same, whole]
      exact (later a ended).done done
    · rw [outcome_bind_of_ok ended] at failed
      rw [same, whole]
      exact (later a ended).failed failed

theorem Follows.map {audited : Audited α} {course : Except Origin α} (f : α → β)
    (follows : Follows course audited) : Follows (f <$> course) (f <$> audited) := by
  refine ⟨fun done => ?_, fun failed => ?_⟩
  · rw [outcome_map] at done
    obtain ⟨a, ended, rfl⟩ := map_eq_ok_iff.mp done
    obtain ⟨passed, quiet⟩ := follows.done ended
    refine ⟨?_, (shows_map f audited).trans quiet⟩
    rw [passed]
    rfl
  · rw [outcome_map] at failed
    obtain ⟨origin, stopped, sounds⟩ := follows.failed (map_eq_error_iff.mp failed)
    refine ⟨origin, ?_, ?_⟩
    · rw [stopped]
      rfl
    · rw [shows_map]
      exact sounds

theorem follows_pure (a : α) : Follows (pure a) (pure a) :=
  ⟨fun done => ⟨by cases done; rfl, rfl⟩, fun failed => nomatch failed⟩

/-- A failure that is no error of the ledger calls for no alarm. -/
theorem follows_of_foreign {audited : Audited α} {course : Except Origin α} {failure : Failure}
    (ended : audited.outcome = .error failure)
    (foreign : ∀ error, failure ≠ .ledger error) : Follows course audited := by
  refine ⟨fun done => ?_, fun failed => ?_⟩
  · rw [ended] at done
    cases done
  · rw [ended] at failed
    cases failed
    exact absurd rfl (foreign _)

theorem blames_of {audited : Audited α}
    (quiet : ∀ {a : α}, audited.outcome = .ok a → audited.shows Entry.alarm? = [])
    (loud : ∀ {error : LedgerError}, audited.outcome = .error (.ledger error) →
      origin.Sounds (audited.shows Entry.alarm?)) : Blames origin audited := by
  refine ⟨fun done => ⟨?_, quiet done⟩, fun failed => ⟨origin, ?_, loud failed⟩⟩
  · rw [blame, done]
    rfl
  · rw [blame, failed]
    rfl

/-- A step that fails for certain follows a course that ends there. -/
theorem Blames.follows {audited : Audited α} {failure : Failure}
    (blames : Blames origin audited) (failed : audited.outcome = .error failure) :
    Follows (throw origin) audited := by
  have same : audited.blame origin = throw origin := by
    rw [blame, failed]
    rfl
  rw [← same]
  exact blames

/-- A chain of steps that have one origin has that origin. -/
theorem blames_bind {first : Audited α} {next : α → Audited β} (here : Blames origin first)
    (later : ∀ a, first.outcome = .ok a → Blames origin (next a)) :
    Blames origin (first >>= next) := by
  have same : (first >>= next).blame origin =
      first.blame origin >>= fun a => (next a).blame origin := by
    unfold blame
    cases ended : first.outcome with
    | error failure =>
      rw [outcome_bind_of_error ended]
      rfl
    | ok a =>
      rw [outcome_bind_of_ok ended]
      rfl
  rw [Blames, same]
  exact Follows.bind here later

theorem blames_pure (a : α) : Blames origin (pure a : Audited α) := follows_pure a

/-- An entry below a warning sounds no alarm. -/
theorem blames_log {level : Level} (message : String) (fields : Fields)
    (low : level.number < Level.warning.number) :
    Blames origin (Audited.log level message fields) := by
  refine blames_of (fun _ => ?_) fun failed => nomatch failed
  have below : ¬ Level.warning.number ≤ level.number := by omega
  rw [shows_log, Entry.alarm?, if_neg below]
  rfl

/-- An entry below a warning about a result changes nothing. -/
theorem Follows.logged {audited : Audited α} {course : Except Origin α} {level : Level}
    (follows : Follows course audited) (message : α → String) (fields : α → Fields)
    (low : level.number < Level.warning.number) :
    Follows course (audited >>= fun a => do
      Audited.log level (message a) (fields a)
      pure a) := by
  have same : course = course >>= pure := by cases course <;> rfl
  rw [same]
  have noted : ∀ a, Blames .session (Audited.log level (message a) (fields a) >>= fun _ => pure a) :=
    fun a => blames_bind (blames_log _ _ low) fun _ _ => blames_pure a
  exact Follows.bind follows fun a _ => noted a

/-- Arguments that do not fit call for no alarm. -/
theorem blames_misuse (outcome : Except Binding.Misuse α) :
    Blames origin (ofExcept (outcome.mapError Failure.misuse)) := by
  cases outcome with
  | ok a => exact blames_pure a
  | error misuse => exact follows_of_foreign rfl fun _ same => nomatch same

end Courses

/-! ## Requests that are refused -/

section Requests

variable {α : Type} {event : String}

theorem blames_reject (stem message : String) (field : Fields) (error : LedgerError)
    (names : event = stem ++ "_invalid") :
    Blames .request (reject message event field error : Audited α) := by
  have ended : (reject message event field error : Audited α).outcome = .error error.raised :=
    outcome_reject ..
  by_cases worded : error.isWorded = true
  · refine blames_of (fun done => ?_) fun _ => ⟨stem, ?_⟩
    · cases ended.symm.trans done
    · rw [shows_reject_of_worded _ _ _ worded, Entry.alarm?_of_loud _ _ _ (by decide), names]
      rfl
  · rw [LedgerError.raised_of_unworded (Bool.eq_false_iff.mpr worded)] at ended
    exact follows_of_foreign ended fun _ same => nomatch same

theorem blames_approve (stem : String) (check : Fields → Check.Verdict α) (data : Fields)
    (names : event = stem ++ "_invalid") : Blames .request (approve check event data) := by
  unfold approve
  split
  · exact follows_of_foreign rfl fun _ same => nomatch same
  · split
    · exact blames_pure _
    · exact blames_reject stem _ _ _ names

theorem blames_admitId (stem : String) (id : Value) (names : event = stem ++ "_invalid") :
    Blames .request (admitId id event) := by
  cases id with
  | int n => exact blames_pure n
  | _ => exact blames_reject stem _ _ _ names

theorem blames_buildFilter (limits : Limits) (ready : Option Filter) (named : Fields) :
    Blames .request (buildFilter limits ready named) := by
  have checked : ∀ data : Fields, Blames .request (approve Filter.check filterEvent data >>=
      fun f => (pure (f.capped limits.maximum) : Audited Filter)) :=
    fun data => blames_bind (blames_approve "db_earning_filter" _ _ rfl)
      fun f _ => blames_pure _
  cases ready with
  | none => exact checked _
  | some f =>
    cases named with
    | nil => exact blames_pure _
    | cons field rest => exact checked _

end Requests

/-! ## Sessions that fail -/

section Sessions

variable {α : Type} {origin : Origin} {event : String}

theorem shows_reportFault (fault : Fault) (amount : Value) (message : String) (context : Fields) :
    (reportFault fault amount message event context : Audited α).shows Entry.alarm? =
      [⟨.error, event⟩] := by
  rw [reportFault, shows_report, Entry.alarm?_of_loud _ _ _ (by decide)]
  rfl

theorem blames_readOutcome (stem : String) (outcome : Except Fault α) (message : String)
    (context : Fields)
    (names : event = stem ++ "_error") :
    Blames .session (readOutcome outcome message event context) := by
  unfold readOutcome
  split
  · exact blames_pure _
  · split
    · exact blames_of (fun done => nomatch done) fun _ =>
        ⟨stem, (shows_reportFault _ _ _ _).trans (by rw [names])⟩
    · exact follows_of_foreign rfl fun _ same => nomatch same

theorem blames_writeFault (fault : Fault) (amount : Value) (message : String) (context : Fields)
    (sounds : origin.Sounds [⟨.error, event⟩]) :
    Blames origin (writeFault fault amount message event context : Audited α) := by
  unfold writeFault
  split
  · refine blames_of (fun done => nomatch done) fun _ => ?_
    rw [shows_reportFault]
    exact sounds
  · exact follows_of_foreign rfl fun _ same => nomatch same

theorem blames_notFound (stem : String) (id : Value) (names : event = stem ++ "_not_found") :
    Blames .unknown (Reading.notFound event id : Audited α) := by
  refine blames_of (fun done => ?_) fun _ => ⟨stem, ?_⟩
  · cases (outcome_notFound event id).symm.trans done
  · rw [shows_notFound, Entry.alarm?_of_loud _ _ _ (by decide), names]
    rfl

end Sessions

end EarningsLedger
