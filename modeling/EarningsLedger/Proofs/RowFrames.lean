import EarningsLedger.Proofs.LedgerRefinement

/-!
# What a call leaves of the rows

Rows outlive every call, and a call that does not change an amount leaves each of them
as it is.  An answered change touches one row, and of that row the amount and the stamp
only: the new stamp lies behind the previous one, however the clocks stand, and not
before the present.  `rows_kept_and_stamps_grow` says so of any call behind any run,
together with what a later caller reads of the changed row.
-/

namespace EarningsLedger

open Calendar Storage Writing

theorem Earning.ofRow_restamped {row : Row} {created : Instant}
    (first : row.cells.created = created.storedText) (amount : Int) (stamp : Instant) :
    Earning.ofRow (row.restamped amount stamp) = .ok ⟨row.id, row.cells.miner, row.cells.pool,
      row.cells.challenge, amount, .plain created, .plain stamp⟩ :=
  Earning.ofRow_eq_ok first rfl

/-! ## Rows behind a call -/

/-- The identifier whose amount a call asks to change. -/
def Call.changes? : Call → Option Int
  | .updateAmount (.int id) _ => some id
  | .addAmount (.int id) _ => some id
  | _ => none

/-- The identifier whose amount a turn has changed: the one that an answered change asked
for. -/
def Event.changed? (event : Event) : Option Int :=
  match event.outcome with
  | .ok _ => event.turn.call.changes?
  | .error _ => none

theorem Call.Asks.changes? {call : Call} {id : Int} {compute : Int → Int}
    (asks : call.Asks id compute) : call.changes? = some id := by
  cases asks <;> rfl

theorem Call.changes?_of_reads {call : Call} (reads : call.reads = true) :
    call.changes? = none := by
  cases call with
  | updateAmount _ _ => cases reads
  | addAmount _ _ => cases reads
  | _ => rfl

/-- A later state of a row: the same earning, of the same owner, created when it was. -/
structure Storage.Row.Became (row later : Row) : Prop where
  id : later.id = row.id
  miner : later.cells.miner = row.cells.miner
  pool : later.cells.pool = row.cells.pool
  challenge : later.cells.challenge = row.cells.challenge
  created : later.cells.created = row.cells.created

namespace Storage.Row.Became

theorem refl (row : Row) : row.Became row := ⟨rfl, rfl, rfl, rfl, rfl⟩

theorem restamped (row : Row) (amount : Int) (stamp : Instant) :
    row.Became (row.restamped amount stamp) :=
  ⟨rfl, rfl, rfl, rfl, rfl⟩

theorem trans {first second third : Row} (early : first.Became second)
    (late : second.Became third) : first.Became third where
  id := late.id.trans early.id
  miner := late.miner.trans early.miner
  pool := late.pool.trans early.pool
  challenge := late.challenge.trans early.challenge
  created := late.created.trans early.created

end Storage.Row.Became

/-- A row whose stamp has moved from one instant to a later one that is not before the
present. -/
def Storage.Row.MovedOn (row later : Row) (now : Instant) : Prop :=
  ∃ old new : Instant, row.cells.updated = old.storedText ∧
    later.cells.updated = new.storedText ∧ old < new ∧ now ≤ new

namespace Call.Effect

variable {env : Environment} {before after : Table} {call : Call} {answer : Answer}

/-- **A row behind an answered call**: it is there as it was, unless the call asked to
change it, and then its stamp has moved on. -/
theorem row_after (sound : before.Sound) (effect : Call.Effect env before call answer after)
    {row : Row} (member : row ∈ before.rows) :
    ∃ later ∈ after.rows, row.Became later ∧ (call.changes? ≠ some row.id → later = row) ∧
      (call.changes? = some row.id → row.MovedOn later env.now) := by
  have kept : ∀ {other : Table}, row ∈ other.rows → call.changes? = none →
      ∃ later ∈ other.rows, row.Became later ∧ (call.changes? ≠ some row.id → later = row) ∧
        (call.changes? = some row.id → row.MovedOn later env.now) := by
    intro other there none
    refine ⟨row, there, .refl row, fun _ => rfl, fun asked => ?_⟩
    rw [none] at asked
    cases asked
  have grown : ∀ {drafts : List Draft}, Stores env drafts before after → row ∈ after.rows := by
    intro drafts stores
    rw [stores.grown]
    exact List.mem_append_left _ member
  cases effect with
  | read reads => exact kept member (changes?_of_reads reads)
  | created admitted stores => exact kept (grown stores) rfl
  | createdNone admitted => exact kept member rfl
  | createdMany admitted some stores => exact kept (grown stores) rfl
  | @amended _ id compute _ _ asks key amends =>
    obtain ⟨changed, created, updated, stamp, ⟨held, same⟩, ⟨-, last⟩, ⟨behind, present⟩, -, rows, -⟩ :=
      sound.of_amends amends
    rw [asks.changes?, rows]
    by_cases here : row.id = id
    · obtain rfl := Table.row_unique member held (here.trans same.symm)
      refine ⟨_, List.mem_map.mpr ⟨row, member, if_pos here⟩, .restamped _ _ _, fun other => ?_,
        fun _ => ⟨updated, stamp, last, rfl, behind, present⟩⟩
      exact absurd (congrArg some here.symm) other
    · refine ⟨row, List.mem_map.mpr ⟨row, member, if_neg here⟩, .refl row, fun _ => rfl,
        fun asked => ?_⟩
      exact absurd (Option.some.inj asked).symm here

/-- A later reader sees a change as it was handed out. -/
theorem read_after (sound : before.Sound) (effect : Call.Effect env before call answer after)
    {id : Int} (asked : call.changes? = some id) :
    (∃ row ∈ before.rows, row.id = id) ∧ ∃ earning, answer = .earning earning ∧
      ∀ reader : Environment, strike reader.injection .get = .ok () →
        ((Call.get (.int id)).run reader (some after)).outcome = .ok (.earning earning) := by
  cases effect with
  | read reads =>
    rw [changes?_of_reads reads] at asked
    cases asked
  | created admitted stores => cases asked
  | createdNone admitted => cases asked
  | createdMany admitted some stores => cases asked
  | @amended _ _ compute made _ asks key amends =>
    obtain rfl := Option.some.inj (asks.changes?.symm.trans asked)
    obtain ⟨row, created, updated, stamp, ⟨held, same⟩, ⟨first, -⟩, -, handed, rows, -⟩ :=
      sound.of_amends amends
    refine ⟨⟨row, held, same⟩, _, rfl, fun reader calm => ?_⟩
    obtain rfl := same
    have found : after.find? row.id = some (row.restamped (compute row.cells.amount) stamp) := by
      refine Table.find?_eq_some_iff.mpr ⟨?_, rfl⟩
      rw [rows]
      exact List.mem_map.mpr ⟨row, held, if_pos rfl⟩
    have looked : Reading.earningAt reader (some after) row.id = .ok (some made.earning) := by
      rw [Reading.earningAt_of_calm after calm, found, Option.elim_some,
        Earning.ofRow_restamped first, handed]
      rfl
    exact (Call.outcome_get (Reading.outcome_get_of_key key looked)).1

end Call.Effect

/-- **Rows stay, and stamps grow.**  Whatever call is made behind any run, however the
clocks were set, whatever failed and whatever faults struck: every row is there behind it
with its identifier, its owner and the stamp of its creation, and a row that the call has
not changed is there as it was.  A change has moved the stamp of its row to a later one
that is not before the present, and handed the row out as a later caller reads it. -/
theorem rows_kept_and_stamps_grow (trigger : Bool) (turns : List Turn) (turn : Turn) :
    ∃ before after, storeAfter (freshStore trigger) turns = some before ∧
      (turn.reply (some before)).store = some after ∧
      (∀ row ∈ before.rows, ∃ later ∈ after.rows, row.Became later ∧
        ((turn.event (some before)).changed? ≠ some row.id → later = row) ∧
        ((turn.event (some before)).changed? = some row.id → row.MovedOn later turn.env.now)) ∧
      ∀ id, (turn.event (some before)).changed? = some id →
        (∃ row ∈ before.rows, row.id = id) ∧
        ∃ earning, (turn.reply (some before)).outcome = .ok (.earning earning) ∧
          ∀ reader : Environment, strike reader.injection .get = .ok () →
            ((Call.get (.int id)).run reader (some after)).outcome = .ok (.earning earning) := by
  obtain ⟨before, left, sound⟩ := sound_after trigger turns
  rcases turn.reply_cases before with
    ⟨failure, failed, kept⟩ | ⟨answer, after, done, stored, effect⟩
  · have none : (turn.event (some before)).changed? = none := by
      simp [Event.changed?, Turn.event, failed]
    refine ⟨before, before, left, kept, fun row member => ?_, fun id asked => ?_⟩
    · refine ⟨row, member, .refl row, fun _ => rfl, fun asked => ?_⟩
      rw [none] at asked
      cases asked
    · rw [none] at asked
      cases asked
  · have asks : (turn.event (some before)).changed? = turn.call.changes? := by
      simp [Event.changed?, Turn.event, done]
    refine ⟨before, after, left, stored, fun row member => ?_, fun id asked => ?_⟩
    · rw [asks]
      exact effect.row_after sound member
    · obtain ⟨held, earning, rfl, reads⟩ := effect.read_after sound (asks.symm.trans asked)
      exact ⟨held, earning, done, reads⟩

/-- A change to the amount that an earning has already, by a clock that has run back:
its stamp moves on all the same, and a later caller reads what was handed out. -/
theorem unchanged_amount_moves_stamp :
    let turns : List Turn := [⟨.usual ⟨10, by decide⟩, .create [("miner_id", .int 5),
      ("pool_id", .int 6), ("challenge_id", .int 7), ("amount", .int 40)]⟩]
    let turn : Turn := ⟨.usual ⟨3, by decide⟩, .updateAmount (.int 1) (.int 40)⟩
    ∃ before after row later earning, storeAfter (freshStore true) turns = some before ∧
      (turn.reply (some before)).store = some after ∧
      (turn.event (some before)).changed? = some row.id ∧
      row ∈ before.rows ∧ later ∈ after.rows ∧ row.Became later ∧
      later.cells.amount = row.cells.amount ∧ row.MovedOn later ⟨3, by decide⟩ ∧
      ((Call.get (.int 1)).run (.usual ⟨4, by decide⟩) (some after)).outcome =
        .ok (.earning earning) := by
  intro turns turn
  obtain ⟨before, after, left, stored, rows, reads⟩ := rows_kept_and_stamps_grow true turns turn
  obtain rfl := Option.some.inj left
  obtain rfl := Option.some.inj stored
  obtain ⟨⟨row, held, same⟩, earning, -, read⟩ := reads 1 rfl
  obtain ⟨later, there, became, -, moved⟩ := rows row held
  have asked : (turn.event (storeAfter (freshStore true) turns)).changed? = some row.id := by
    rw [same]
    rfl
  obtain rfl := List.mem_singleton.mp held
  obtain rfl := List.mem_singleton.mp there
  exact ⟨_, _, _, _, earning, rfl, rfl, asked, held, there, became, rfl, moved asked,
    read (.usual ⟨4, by decide⟩) rfl⟩

end EarningsLedger
