import EarningsLedger.Proofs.Outcomes

/-!
# What an operation writes to its log

An audited operation hands out the entries that it wrote, in order.  A `view` of the log
picks some entries and what is to be known of them; `Audited.shows` is what a view shows
of an operation.  A chain shows what its first step shows, and behind a result also what
the rest shows, so what an operation shows is read off step by step like its outcome.

Every entry of the ledger begins with the event that it is about.
-/

namespace EarningsLedger

open Log Storage

/-- The event that an entry is about. -/
def Log.Entry.event (entry : Entry) : String :=
  match entry.fields.get? "event" with
  | some (.text event) => event
  | _ => ""

@[simp] theorem Log.Entry.event_eventField (level : Level) (message event : String)
    (rest : Fields) : Entry.event ⟨level, message, eventField event :: rest⟩ = event := by
  simp [Entry.event, Fields.get?, eventField]

/-! ## Chains -/

namespace Audited

variable {α β γ : Type} {view : Entry → Option γ}

/-- What a view shows of the entries of an operation. -/
def shows (view : Entry → Option γ) (audited : Audited α) : List γ :=
  audited.entries.filterMap view

@[simp] theorem shows_pure (a : α) : (pure a : Audited α).shows view = [] := rfl

@[simp] theorem shows_fail (failure : Failure) : (fail failure : Audited α).shows view = [] := rfl

@[simp] theorem shows_ofExcept (outcome : Except Failure α) :
    (ofExcept outcome).shows view = [] := rfl

@[simp] theorem shows_log (level : Level) (message : String) (fields : Fields) :
    (log level message fields).shows view = (view ⟨level, message, fields⟩).toList := by
  unfold shows log
  cases seen : view ⟨level, message, fields⟩ <;> simp [seen]

/-- Behind a step that gave a result the rest is shown as well. -/
theorem shows_bind_of_ok {first : Audited α} {next : α → Audited β} {a : α}
    (done : first.outcome = .ok a) :
    (first >>= next).shows view = first.shows view ++ (next a).shows view := by
  show (first.andThen next).shows view = _
  simp only [shows, andThen, done, List.filterMap_append]

/-- A step that failed is the last that is shown. -/
theorem shows_bind_of_error {first : Audited α} {next : α → Audited β} {failure : Failure}
    (failed : first.outcome = .error failure) :
    (first >>= next).shows view = first.shows view := by
  show (first.andThen next).shows view = _
  simp only [shows, andThen, failed]

/-- A chain shows nothing when none of its steps does. -/
theorem shows_bind_nil {first : Audited α} {next : α → Audited β}
    (here : first.shows view = []) (later : ∀ a, (next a).shows view = []) :
    (first >>= next).shows view = [] := by
  cases ended : first.outcome with
  | error failure => rw [shows_bind_of_error ended, here]
  | ok a => rw [shows_bind_of_ok ended, here, later a, List.append_nil]

@[simp] theorem shows_map (f : α → β) (audited : Audited α) :
    (f <$> audited).shows view = audited.shows view := by
  show (audited.andThen _).shows view = _
  unfold shows andThen
  cases audited.outcome with
  | error failure => rfl
  | ok a => exact congrArg (List.filterMap view) (List.append_nil _)

end Audited

/-! ## Requests that failed their check -/

open Audited

variable {α γ : Type} {view : Entry → Option γ}

/-- A log that begins with the event of an entry and ends in a failure. -/
theorem shows_reject_of_worded (message event : String) (field : Fields) {error : LedgerError}
    (worded : error.isWorded = true) :
    (reject message event field error : Audited α).shows view =
      (view ⟨.warning, message, eventField event :: (field ++
        [("error", .text error.message), ("error_type", .text error.kind.name)])⟩).toList := by
  rw [reject, if_pos worded, shows_bind_of_ok rfl, shows_log, shows_fail, List.append_nil]
  rfl

/-- Nothing is logged of a request whose error cannot be made. -/
theorem shows_reject_of_unworded (message event : String) (field : Fields) {error : LedgerError}
    (unworded : ¬ error.isWorded = true) :
    (reject message event field error : Audited α).shows view = [] := by
  rw [reject, if_neg unworded, shows_fail]

theorem shows_notFound (event : String) (id : Value) :
    (Reading.notFound event id : Audited α).shows view =
      (view ⟨.warning, "Начисление не найдено", [eventField event, ("earning_id", id)]⟩).toList := by
  rw [Reading.notFound, shows_bind_of_ok rfl, shows_log, shows_fail, List.append_nil]

/-! ## Faults of the store -/

theorem shows_report (trouble : Trouble) (error : LedgerError) (message event : String)
    (context : Fields) :
    (report trouble error message event context : Audited α).shows view =
      (view ⟨.error, message, eventField event :: ([("error", .text trouble.text),
        ("error_type", .text trouble.sort), ("raised", .text error.kind.name)] ++
          context)⟩).toList := by
  rw [report, shows_bind_of_ok rfl, shows_log, shows_fail, List.append_nil]
  rfl

end EarningsLedger
