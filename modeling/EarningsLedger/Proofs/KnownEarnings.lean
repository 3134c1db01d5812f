import EarningsLedger.Proofs.SoundTables
import Mathlib.Data.Option.Basic

/-!
# What the calls tell about an earning

Whoever has seen every call of a run, with its arguments and its outcome, can tell what
the ledger holds without looking into it: a call that opened an earning told its owner
and its first amount, and every answered change after it told what became of the amount.
`known` folds this over the calls in their order; calls that failed contribute nothing.

`Agrees` says that a table holds exactly what is known, and `agrees_after` that it does
so behind every run.
-/

namespace EarningsLedger

open Calendar Storage Writing

/-! ## Knowledge -/

/-- What is known of an earning. -/
structure Known where
  miner : Int
  pool : Int
  challenge : Int
  amount : Int
  created : Instant

/-- What a request for a new earning tells, under the names that are read from it, when
it is granted at an instant. -/
def Known.told (now : Instant) (read : String → Option Value) : Known where
  miner := numberOf (read "miner_id")
  pool := numberOf (read "pool_id")
  challenge := numberOf (read "challenge_id")
  amount := numberOf (read "amount")
  created := now

/-- The requests for new earnings in a call, each with what it holds under a name. -/
def Call.requests : Call → List (String → Option Value)
  | .create arguments => [arguments.get?]
  | .createBatch batch =>
    match Binding.items batch with
    | .ok items => items.map Value.entry?
    | .error _ => []
  | _ => []

namespace Event

/-- The earnings that a call has opened, with what it told of them. -/
def opened (event : Event) : List (Int × Known) :=
  event.assigned.zip (event.turn.call.requests.map (Known.told event.turn.env.now))

/-- What a call makes of the amount of an earning: an answered change sets it or adds to
it, and everything else leaves it. -/
def amend (event : Event) (id old : Int) : Int :=
  match event.outcome, event.turn.call with
  | .ok _, .updateAmount (.int n) (.int amount) => if n = id then amount else old
  | .ok _, .addAmount (.int n) (.int delta) => if n = id then old + delta else old
  | _, _ => old

/-- What is known of an earning after a call, from what was known before it. -/
def learn (event : Event) (id : Int) (before : Option Known) : Option Known :=
  ((event.opened.find? fun entry => entry.1 == id).map Prod.snd).or
    (before.map fun known => { known with amount := event.amend id known.amount })

end Event

/-- What the calls so far tell about the earning of an identifier. -/
def known (past : List Event) (id : Int) : Option Known :=
  past.foldl (fun found event => event.learn id found) none

theorem known_concat (past : List Event) (event : Event) (id : Int) :
    known (past ++ [event]) id = event.learn id (known past id) := by
  simp [known]

/-- A row that holds what is known of its earning. -/
structure Known.Describes (known : Known) (row : Row) : Prop where
  miner : row.cells.miner = known.miner
  pool : row.cells.pool = known.pool
  challenge : row.cells.challenge = known.challenge
  amount : row.cells.amount = known.amount
  created : row.cells.created = known.created.storedText

/-- A table that holds what is known from the calls so far: the same earnings, no more
and no fewer, under the identifiers that the calls were given. -/
structure Agrees (past : List Event) (table : Table) : Prop where
  sound : table.Sound
  rows : ∀ id, Option.Rel Known.Describes (known past id) (table.find? id)
  numbers : ∀ id, table.find? id = none ↔ ∀ event ∈ past, id ∉ event.assigned

/-! ## Calls that open no earning -/

variable {past : List Event} {before after : Table} {event : Event}

theorem Event.learn_of_assigned_nil (closed : event.assigned = []) (id : Int)
    (before : Option Known) :
    event.learn id before =
      before.map fun known => { known with amount := event.amend id known.amount } := by
  simp [Event.learn, Event.opened, closed]

/-- A call that gave out no identifier and changed no amount adds nothing. -/
theorem Agrees.unchanged (agrees : Agrees past before) (closed : event.assigned = [])
    (same : ∀ id old, event.amend id old = old) : Agrees (past ++ [event]) before := by
  refine ⟨agrees.sound, fun id => ?_, fun id => ?_⟩
  · rw [known_concat, Event.learn_of_assigned_nil closed]
    simp only [same, Option.map_id']
    exact agrees.rows id
  · rw [agrees.numbers id, List.forall_mem_append, List.forall_mem_singleton, closed]
    simp

/-! ## Calls that open earnings -/

/-- The rows that are stored for drafts hold what their requests told. -/
theorem Known.describes_numbered (now : Instant) {reads : List (String → Option Value)}
    {drafts : List Draft} (said : List.Forall₂ (fun read draft => draft.SaidBy read) reads drafts)
    (next id : Int) :
    Option.Rel Known.Describes
      (((((earningsFrom now next drafts).map Earning.id).zip (reads.map (Known.told now))).find?
        fun entry => entry.1 == id).map Prod.snd)
      ((numbered next (cellsAt now drafts)).find? fun row => row.id == id) := by
  induction said generalizing next with
  | nil => exact .none
  | @cons read draft _ _ here _ ih =>
    by_cases first : next = id
    · subst first
      have told : Known.Describes (Known.told now read) ⟨next, Earning.cellsOf draft now⟩ :=
        ⟨by simp [Known.told, here.miner, numberOf, Earning.cellsOf],
          by simp [Known.told, here.pool, numberOf, Earning.cellsOf],
          by simp [Known.told, here.challenge, numberOf, Earning.cellsOf],
          here.amount.symm, rfl⟩
      simpa [earningsFrom, cellsAt, numbered, Earning.ofDraft] using told
    · simpa [earningsFrom, cellsAt, numbered, Earning.ofDraft, first] using ih (next + 1)

/-- Rows for drafts are known from the call whose requests the drafts were made from. -/
theorem Agrees.stores {drafts : List Draft} (agrees : Agrees past before)
    (stores : Stores event.turn.env drafts before after)
    (said : List.Forall₂ (fun read draft => draft.SaidBy read) event.turn.call.requests drafts)
    (given : event.assigned =
      (earningsFrom event.turn.env.now (before.highest + 1) drafts).map Earning.id)
    (same : ∀ id old, event.amend id old = old) : Agrees (past ++ [event]) after := by
  have found : ∀ id, after.find? id = (before.find? id).or
      ((numbered (before.highest + 1) (cellsAt event.turn.env.now drafts)).find?
        fun row => row.id == id) := by
    intro id
    rw [stores.grown, Table.find?_extended]
  refine ⟨agrees.sound.stores stores, fun id => ?_, fun id => ?_⟩
  · have opened := Known.describes_numbered event.turn.env.now said
      (before.highest + 1) id
    rw [← given] at opened
    have old := agrees.rows id
    rw [known_concat, found id]
    unfold Event.learn Event.opened
    simp only [same, Option.map_id']
    generalize known past id = told at old
    generalize held : before.find? id = row at old
    cases old with
    | none =>
      rw [Option.or_none, Option.none_or]
      exact opened
    | some describes =>
      have closed := Table.find?_numbered_of_found held (cellsAt event.turn.env.now drafts)
      rw [closed] at opened ⊢
      generalize ((event.assigned.zip (event.turn.call.requests.map
        (Known.told event.turn.env.now))).find? fun entry => entry.1 == id).map Prod.snd = first
        at opened
      cases opened with
      | none => exact .some describes
  · rw [found id, Option.or_eq_none_iff, agrees.numbers id, List.forall_mem_append,
      List.forall_mem_singleton, given, map_id_earningsFrom]
    simp [List.find?_eq_none]

/-! ## Calls that change an amount -/

theorem Storage.Table.stamped_eq (table : Table) (clock : String) (old new : Cells) :
    ∃ stamp, table.stamped clock old new = { new with updated := stamp } := by
  unfold Table.stamped
  split
  · exact ⟨clock, rfl⟩
  · exact ⟨new.updated, rfl⟩

/-- A change is known from the call that asked for it. -/
theorem Agrees.amends {id : Int} {compute : Int → Int} {made : Change}
    (agrees : Agrees past before)
    (amends : Amends event.turn.env id compute before made after)
    (closed : event.assigned = [])
    (computes : ∀ other old, event.amend other old = if id = other then compute old else old) :
    Agrees (past ++ [event]) after := by
  refine ⟨agrees.sound.amends amends, fun other => ?_, fun other => ?_⟩
  · obtain ⟨executes, commits, found, read, amount, fits, later⟩ := amends
    rw [known_concat, Event.learn_of_assigned_nil closed, Table.find?_amend]
    have old := agrees.rows other
    generalize known past other = told at old
    generalize held : before.find? other = row at old
    cases old with
    | none => exact .none
    | @some known row describes =>
      have number := (Table.find?_eq_some_iff.mp held).2
      refine .some ?_
      dsimp only
      rw [computes other, number]
      by_cases here : id = other
      · subst here
        obtain rfl := Option.some.inj (held.symm.trans found)
        obtain ⟨_, _, -, whole⟩ := agrees.sound.ofRow (Table.find?_eq_some_iff.mp held).1
        obtain rfl := Except.ok.inj (whole.symm.trans read)
        rw [if_pos rfl, if_pos rfl]
        obtain ⟨stamp, stamped⟩ := before.stamped_eq event.turn.env.databaseNow.milliText
          row.cells { row.cells with
            amount := compute row.cells.amount
            updated := Instant.storedText _ }
        rw [stamped]
        exact ⟨describes.miner, describes.pool, describes.challenge,
          congrArg compute describes.amount, describes.created⟩
      · rw [if_neg here, if_neg (Ne.symm here)]
        exact describes
  · obtain ⟨executes, commits, found, read, amount, fits, later⟩ := amends
    rw [Table.find?_amend, Option.map_eq_none_iff, agrees.numbers other, List.forall_mem_append,
      List.forall_mem_singleton, closed]
    simp

/-! ## Every call -/

/-- An answered batch told the drafts that it was stored as. -/
theorem Call.requests_of_admitBatch {batch : Value} {drafts : List Draft}
    (admitted : (admitBatch batch).outcome = .ok drafts) :
    List.Forall₂ (fun read draft => draft.SaidBy read) (Call.createBatch batch).requests drafts := by
  obtain ⟨items, held, pairs⟩ := admitBatch_ok admitted
  have requests : (Call.createBatch batch).requests = items.map Value.entry? := by
    simp only [Call.requests, held]
  rw [requests, List.forall₂_map_left_iff]
  exact pairs.imp fun _ _ passed => admitItem_ok passed

/-- An answered change does to the amounts what it asks for. -/
theorem Event.amend_of_asks {event : Event} {answer : Answer} {id : Int} {compute : Int → Int}
    (done : event.outcome = .ok answer) (asks : event.turn.call.Asks id compute) (other old : Int) :
    event.amend other old = if id = other then compute old else old := by
  unfold Event.amend
  rw [done]
  cases asked : event.turn.call <;> rw [asked] at asks <;> cases asks <;> rfl

/-- Reading changes no amount. -/
theorem Event.amend_of_reads {event : Event} (reads : event.turn.call.reads = true)
    (id old : Int) : event.amend id old = old := by
  unfold Event.amend
  split
  · next asked =>
    rw [asked] at reads
    cases reads
  · next asked =>
    rw [asked] at reads
    cases reads
  · rfl

/-- **One call keeps a table in agreement with what is known.** -/
theorem Agrees.step {turn : Turn} (agrees : Agrees past before)
    (stored : (turn.reply (some before)).store = some after) :
    Agrees (past ++ [turn.event (some before)]) after := by
  rcases turn.reply_cases before with ⟨failure, failed, kept⟩ | ⟨answer, left, done, same, effect⟩
  · cases kept.symm.trans stored
    exact agrees.unchanged (by simp [Event.assigned, Turn.event, failed])
      (by simp [Event.amend, Turn.event, failed])
  · cases same.symm.trans stored
    have given : (turn.event (some before)).assigned = turn.call.assigned answer := by
      simp [Event.assigned, Turn.event, done]
    have answered : (turn.event (some before)).outcome = .ok answer := done
    obtain ⟨env, call⟩ := turn
    cases effect with
    | read reads =>
      refine agrees.unchanged ?_ fun id old => Event.amend_of_reads reads id old
      rw [given, Call.assigned_of_reads reads]
    | created admitted stores =>
      exact agrees.stores stores (.cons (admitDraft_ok admitted) .nil) given fun id old => by
        simp [Event.amend, Turn.event]
    | createdNone admitted =>
      exact agrees.unchanged given fun id old => by simp [Event.amend, Turn.event]
    | createdMany admitted some stores =>
      exact agrees.stores stores (Call.requests_of_admitBatch admitted) given fun id old => by
        simp [Event.amend, Turn.event]
    | amended asks key amends =>
      refine agrees.amends amends ?_ (Event.amend_of_asks answered asks)
      rw [given]
      cases asks <;> rfl

theorem Agrees.fresh (trigger : Bool) : Agrees [] (Table.empty trigger) where
  sound := .empty trigger
  rows _ := .none
  numbers _ := ⟨fun _ _ member => (nomatch member), fun _ => rfl⟩

/-- **The table agrees with what is known**, behind every run from a ledger without
rows. -/
theorem agrees_after (trigger : Bool) (turns : List Turn) :
    ∃ after, storeAfter (freshStore trigger) turns = some after ∧
      Agrees (history (freshStore trigger) turns) after :=
  history_after (R := Agrees) (fun agrees stored => agrees.step stored) [] (.fresh trigger) turns

end EarningsLedger
