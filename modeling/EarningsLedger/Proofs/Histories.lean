import EarningsLedger.Proofs.CallEffects

/-!
# Runs of calls

A run is a list of turns: a call, and the environment it is made in.  Clocks, page
lengths and injected faults may differ from turn to turn in any way.  `storeAfter` is
the store that a run leaves and `history` what its callers saw, call by call.

An invariant of tables is carried through a run by `table_after`, and a relation between
what was seen so far and the table by `history_after`; both ask only for the step of one
call.
-/

namespace EarningsLedger

open Calendar Log Storage

/-- The environment of a ledger with the usual page lengths at an instant, in which
nothing is struck. -/
def Environment.usual (now : Instant) : Environment := ⟨now, ⟨100, 1000⟩, now, none⟩

/-- A call, and what it depends on besides the store. -/
structure Turn where
  env : Environment
  call : Call

/-- A turn, and what its caller saw of it. -/
structure Event where
  turn : Turn
  outcome : Except Failure Answer
  entries : List Entry

namespace Turn

/-- The reply to a turn. -/
def reply (turn : Turn) (store : Store) : Reply := turn.call.run turn.env store

/-- What the caller of a turn sees. -/
def event (turn : Turn) (store : Store) : Event :=
  ⟨turn, (turn.reply store).outcome, (turn.reply store).entries⟩

end Turn

/-- The store that turns leave behind. -/
def storeAfter (store : Store) : List Turn → Store
  | [] => store
  | turn :: rest => storeAfter (turn.reply store).store rest

/-- What the callers of turns see, in the order of the calls. -/
def history (store : Store) : List Turn → List Event
  | [] => []
  | turn :: rest => turn.event store :: history (turn.reply store).store rest

/-- The store of a ledger that nobody has called yet. -/
def freshStore (trigger : Bool) : Store := some (Table.empty trigger)

/-! ## Identifiers handed out -/

/-- The identifiers that an answered call has given to new earnings, in the order of the
items it was asked for. -/
def Call.assigned : Call → Answer → List Int
  | .create _, .earning earning => [earning.id]
  | .createBatch _, .earnings earnings => earnings.map Earning.id
  | _, _ => []

/-- The identifiers that a turn has given to new earnings. -/
def Event.assigned (event : Event) : List Int :=
  match event.outcome with
  | .ok answer => event.turn.call.assigned answer
  | .error _ => []

/-- Reading gives out no identifier. -/
theorem Call.assigned_of_reads {call : Call} (reads : call.reads = true) (answer : Answer) :
    call.assigned answer = [] := by
  cases call with
  | create _ => cases reads
  | createBatch _ => cases reads
  | _ => rfl

theorem map_id_earningsFrom (now : Instant) (next : Int) (drafts : List Draft) :
    (Writing.earningsFrom now next drafts).map Earning.id =
      (numbered next (Writing.cellsAt now drafts)).map Row.id := by
  induction drafts generalizing next with
  | nil => rfl
  | cons draft rest ih =>
    simp only [Writing.earningsFrom, List.map_cons, ih (next + 1)]
    rfl

/-- The first identifier that a call gives is the one behind the largest. -/
theorem Call.Effect.head?_assigned {env : Environment} {before after : Table} {call : Call}
    {answer : Answer} (effect : Call.Effect env before call answer after) {id : Int}
    (first : (call.assigned answer).head? = some id) : id = before.highest + 1 := by
  cases effect with
  | read reads =>
    rw [assigned_of_reads reads] at first
    cases first
  | created admitted stores =>
    cases first
    rfl
  | createdNone admitted => cases first
  | @createdMany _ drafts _ admitted some stores =>
    cases drafts with
    | nil => exact absurd rfl some
    | cons draft rest =>
      cases first
      rfl
  | amended asks key amends => cases asks <;> cases first

/-! ## Carrying facts through a run -/

/-- A call on a store with a table leaves a table: the same one, or what its effect
made. -/
theorem Turn.reply_cases (turn : Turn) (before : Table) :
    (∃ failure, (turn.reply (some before)).outcome = .error failure ∧
      (turn.reply (some before)).store = some before) ∨
    ∃ answer after, (turn.reply (some before)).outcome = .ok answer ∧
      (turn.reply (some before)).store = some after ∧
      Call.Effect turn.env before turn.call answer after := by
  cases ended : (turn.reply (some before)).outcome with
  | error failure => exact .inl ⟨failure, rfl, Call.store_of_error ended⟩
  | ok answer =>
    obtain ⟨after, stored, effect⟩ := Call.effect_of_ok ended
    exact .inr ⟨answer, after, rfl, stored, effect⟩

/-- A relation between the history so far and the table holds behind every run when it
holds before it and one turn keeps it. -/
theorem history_after {R : List Event → Table → Prop}
    (step : ∀ {past : List Event} {before after : Table} {turn : Turn}, R past before →
      (turn.reply (some before)).store = some after → R (past ++ [turn.event (some before)]) after)
    (past : List Event) {before : Table} (start : R past before) (turns : List Turn) :
    ∃ after, storeAfter (some before) turns = some after ∧
      R (past ++ history (some before) turns) after := by
  induction turns generalizing past before with
  | nil => exact ⟨before, rfl, by simpa [history] using start⟩
  | cons turn rest ih =>
    obtain ⟨middle, stored⟩ : ∃ middle, (turn.reply (some before)).store = some middle := by
      rcases turn.reply_cases before with ⟨_, _, stored⟩ | ⟨_, after, _, stored, _⟩
      · exact ⟨before, stored⟩
      · exact ⟨after, stored⟩
    obtain ⟨after, left, holds⟩ := ih _ (step start stored)
    refine ⟨after, by rw [storeAfter, stored, left], ?_⟩
    rw [history, stored]
    simpa using holds

/-- A property of tables holds behind every run when it holds before it and the effect
of one call keeps it. -/
theorem table_after {P : Table → Prop}
    (step : ∀ {env : Environment} {before after : Table} {call : Call} {answer : Answer},
      P before → Call.Effect env before call answer after → P after)
    {before : Table} (start : P before) (turns : List Turn) :
    ∃ after, storeAfter (some before) turns = some after ∧ P after := by
  refine history_after (R := fun _ table => P table) (fun {_ before after turn} holds stored => ?_)
    [] start turns
  rcases turn.reply_cases before with ⟨_, _, kept⟩ | ⟨_, _, _, left, effect⟩
  · cases kept.symm.trans stored
    exact holds
  · cases left.symm.trans stored
    exact step holds effect

end EarningsLedger
