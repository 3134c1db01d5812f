import EarningsLedger.Proofs.AuditRecords

/-!
# The log accounts for the table

Whoever has kept the log of a ledger from its beginning can tell, from the audit records
alone, how many rows there are and what their amounts add up to; and for each earning the
records of its changes lead from the amount it was opened with to the amount it holds.
`log_accounts_for_table` says so behind every run, whatever failed on the way.

The two sides are kept in step call by call: `Accounts` is the relation between the log so
far and the table, and `Accounts.step` says that one call keeps it.
-/

namespace EarningsLedger

open Log Storage Writing

/-! ## Reading the records -/

namespace AuditRecord

/-- How many rows a record says were opened. -/
def rows : AuditRecord → Int
  | opened _ _ => 1
  | openedMany count _ => count
  | moved _ _ _ => 0

/-- What a record says was added to the amounts of the ledger. -/
def gain : AuditRecord → Int
  | opened _ amount => amount
  | openedMany _ total => total
  | moved _ old new => new - old

/-- The change of an earning that a record tells: the amount before and the amount behind
it. -/
def move? (id : Int) : AuditRecord → Option (Int × Int)
  | moved other old new => if other = id then some (old, new) else none
  | _ => none

end AuditRecord

/-- Everything that was logged while the calls so far were made. -/
def logOf (past : List Event) : List Entry := past.flatMap Event.entries

/-- The changes of an earning that a log records, in order. -/
def movesOf (id : Int) (entries : List Entry) : List (Int × Int) :=
  (recordsOf entries).filterMap (AuditRecord.move? id)

/-- Changes that lead from one amount to another: each begins where the one before it
ended. -/
def Chained : Int → List (Int × Int) → Int → Prop
  | first, [], last => first = last
  | first, move :: rest, last => move.1 = first ∧ Chained move.2 rest last

/-- A chain goes on with a change that begins where it ended. -/
theorem Chained.concat {first last new : Int} {moves : List (Int × Int)}
    (chained : Chained first moves last) : Chained first (moves ++ [(last, new)]) new := by
  induction moves generalizing first with
  | nil => exact ⟨Eq.symm chained, rfl⟩
  | cons move rest ih => exact ⟨chained.1, ih chained.2⟩

/-- The earnings that an answered call has handed out as new. -/
def Event.newEarnings (event : Event) : List Earning :=
  match event.outcome, event.turn.call with
  | .ok (.earning earning), .create _ => [earning]
  | .ok (.earnings earnings), .createBatch _ => earnings
  | _, _ => []

/-- The amount that an earning was opened with, if a call so far has opened it. -/
def firstAmount (past : List Event) (id : Int) : Option Int :=
  ((past.flatMap Event.newEarnings).find? fun earning => earning.id == id).map Earning.amount

theorem recordsOf_logOf_concat (past : List Event) (event : Event) :
    recordsOf (logOf (past ++ [event])) = recordsOf (logOf past) ++ recordsOf event.entries := by
  simp [logOf, recordsOf]

theorem movesOf_logOf_concat (id : Int) (past : List Event) (event : Event) :
    movesOf id (logOf (past ++ [event])) =
      movesOf id (logOf past) ++ (recordsOf event.entries).filterMap (AuditRecord.move? id) := by
  rw [movesOf, recordsOf_logOf_concat, List.filterMap_append]
  rfl

theorem firstAmount_concat (past : List Event) (event : Event) (id : Int) :
    firstAmount (past ++ [event]) id = (firstAmount past id).or
      ((event.newEarnings.find? fun earning => earning.id == id).map Earning.amount) := by
  simp [firstAmount, List.find?_append, Option.map_or]

/-! ## Sums of amounts -/

namespace Storage

theorem sumAmounts_cons (row : Row) (rows : List Row) :
    sumAmounts (row :: rows) = row.cells.amount + sumAmounts rows := rfl

theorem sumAmounts_append (rows more : List Row) :
    sumAmounts (rows ++ more) = sumAmounts rows + sumAmounts more := by
  induction rows with
  | nil => exact (Int.zero_add _).symm
  | cons row rest ih =>
    rw [List.cons_append, sumAmounts_cons, sumAmounts_cons, ih, Int.add_assoc]

/-- New rows add up to what the earnings that are handed out for them add up to. -/
theorem sumAmounts_numbered (now : Calendar.Instant) (next : Int) (drafts : List Draft) :
    sumAmounts (numbered next (cellsAt now drafts)) = totalAmount (earningsFrom now next drafts) := by
  induction drafts generalizing next with
  | nil => rfl
  | cons draft rest ih => exact congrArg (draft.amount.val + ·) (ih (next + 1))

/-- Another amount in one row changes the sum by as much as it changes that row. -/
theorem sumAmounts_restamped {rows : List Row} (sorted : Ascending rows) {row : Row}
    (held : row ∈ rows) (amount : Int) (stamp : Calendar.Instant) :
    sumAmounts (rows.map fun other => if other.id = row.id then row.restamped amount stamp else other) =
      sumAmounts rows + (amount - row.cells.amount) := by
  induction rows with
  | nil => cases held
  | cons first rest ih =>
    obtain ⟨below, sorted⟩ := List.pairwise_cons.mp sorted
    rw [List.map_cons, sumAmounts_cons, sumAmounts_cons]
    rcases List.mem_cons.mp held with rfl | later
    · -- the identifiers behind it are larger, so no other row is touched
      have kept : (rest.map fun other =>
          if other.id = row.id then row.restamped amount stamp else other) = rest := by
        refine (List.map_congr_left fun other member => ?_).trans (List.map_id rest)
        have larger := below other member
        rw [if_neg (by omega)]
        rfl
      rw [kept, if_pos rfl]
      show amount + _ = _
      omega
    · have smaller := below row later
      rw [if_neg (by omega), ih sorted later]
      omega

/-- A look-up behind a change of one row finds the rows there were, that one changed. -/
theorem Table.find?_restamped {before after : Table} {row : Row} {amount : Int}
    {stamp : Calendar.Instant} (rows : after.rows = before.rows.map fun other =>
      if other.id = row.id then row.restamped amount stamp else other) (id : Int) :
    after.find? id = (before.find? id).map fun other =>
      if other.id = row.id then row.restamped amount stamp else other := by
  have keeps : (fun other : Row => other.id == id) ∘ (fun other : Row =>
      if other.id = row.id then row.restamped amount stamp else other) =
        fun other => other.id == id := by
    funext other
    dsimp only [Function.comp]
    split
    · next same =>
      rw [same]
      rfl
    · rfl
  simp only [find?, rows, List.find?_map, keeps]

end Storage

/-! ## The log and the table in step -/

/-- A log that accounts for a table: the records count its rows and add up to its amounts,
and each row is reached from the amount it was opened with by the changes recorded of it. -/
structure Accounts (past : List Event) (table : Table) : Prop where
  sound : table.Sound
  rows : ((recordsOf (logOf past)).map AuditRecord.rows).sum = table.rows.length
  amounts : ((recordsOf (logOf past)).map AuditRecord.gain).sum = sumAmounts table.rows
  chains : ∀ id, Option.Rel
    (fun first row => Chained first (movesOf id (logOf past)) row.cells.amount)
    (firstAmount past id) (table.find? id)
  unmoved : ∀ id, table.find? id = none → movesOf id (logOf past) = []

namespace Accounts

variable {past : List Event} {before after : Table} {event : Event}

theorem fresh (trigger : Bool) : Accounts [] (Table.empty trigger) where
  sound := .empty trigger
  rows := rfl
  amounts := rfl
  chains _ := .none
  unmoved _ _ := rfl

/-- A call that recorded nothing and opened no earning has left the table alone. -/
theorem unchanged (accounts : Accounts past before) (silent : recordsOf event.entries = [])
    (closed : event.newEarnings = []) : Accounts (past ++ [event]) before where
  sound := accounts.sound
  rows := by
    rw [recordsOf_logOf_concat, silent, List.append_nil]
    exact accounts.rows
  amounts := by
    rw [recordsOf_logOf_concat, silent, List.append_nil]
    exact accounts.amounts
  chains id := by
    rw [movesOf_logOf_concat, firstAmount_concat, silent, closed, List.filterMap_nil,
      List.append_nil, List.find?_nil, Option.map_none, Option.or_none]
    exact accounts.chains id
  unmoved id absent := by
    rw [movesOf_logOf_concat, silent, List.filterMap_nil, List.append_nil]
    exact accounts.unmoved id absent

/-- New rows hold the amounts of the earnings that are handed out for them. -/
theorem rel_numbered (now : Calendar.Instant) (next id : Int) (drafts : List Draft) :
    Option.Rel (fun first row => first = row.cells.amount)
      (((earningsFrom now next drafts).find? fun earning => earning.id == id).map Earning.amount)
      ((numbered next (cellsAt now drafts)).find? fun row => row.id == id) := by
  induction drafts generalizing next with
  | nil => exact .none
  | cons draft rest ih =>
    by_cases first : next = id
    · subst first
      have same : Option.Rel (fun first (row : Row) => first = row.cells.amount)
          (some draft.amount.val) (some ⟨next, Earning.cellsOf draft now⟩) := .some rfl
      simpa [earningsFrom, cellsAt, numbered, Earning.ofDraft] using same
    · simpa [earningsFrom, cellsAt, numbered, Earning.ofDraft, first] using ih (next + 1)

/-- A call that stored drafts has recorded how many there are and what they add up to. -/
theorem stores {drafts : List Draft} (accounts : Accounts past before)
    (stores : Stores event.turn.env drafts before after)
    (given : event.newEarnings = earningsFrom event.turn.env.now (before.highest + 1) drafts)
    (counted : ((recordsOf event.entries).map AuditRecord.rows).sum = drafts.length)
    (summed : ((recordsOf event.entries).map AuditRecord.gain).sum =
      totalAmount (earningsFrom event.turn.env.now (before.highest + 1) drafts))
    (still : ∀ id, (recordsOf event.entries).filterMap (AuditRecord.move? id) = []) :
    Accounts (past ++ [event]) after := by
  have rows : after.rows = before.rows ++
      numbered (before.highest + 1) (cellsAt event.turn.env.now drafts) := by
    rw [stores.grown]
    rfl
  have found : ∀ id, after.find? id = (before.find? id).or
      ((numbered (before.highest + 1) (cellsAt event.turn.env.now drafts)).find?
        fun row => row.id == id) := by
    intro id
    rw [stores.grown, Table.find?_extended]
  refine ⟨accounts.sound.stores stores, ?_, ?_, fun id => ?_, fun id absent => ?_⟩
  · rw [recordsOf_logOf_concat, List.map_append, List.sum_append, accounts.rows, counted, rows,
      List.length_append, length_numbered, length_cellsAt]
    omega
  · rw [recordsOf_logOf_concat, List.map_append, List.sum_append, accounts.amounts, summed, rows,
      sumAmounts_append, sumAmounts_numbered]
  · have new := rel_numbered event.turn.env.now (before.highest + 1) id drafts
    have old := accounts.chains id
    have moves := accounts.unmoved id
    rw [movesOf_logOf_concat, still id, List.append_nil, firstAmount_concat, given, found id]
    generalize firstAmount past id = first at old
    generalize before.find? id = held at old moves
    cases old with
    | none =>
      -- an identifier that was not in use has no changes yet
      rw [moves rfl, Option.none_or, Option.none_or]
      exact new
    | some chained =>
      exact .some chained
  · rw [found id, Option.or_eq_none_iff] at absent
    rw [movesOf_logOf_concat, still id, List.append_nil]
    exact accounts.unmoved id absent.1

/-- A change has recorded the amount that it found, and the amount that it left. -/
theorem amends {id : Int} {compute : Int → Int} {made : Change} (accounts : Accounts past before)
    (amends : Amends event.turn.env id compute before made after)
    (noted : recordsOf event.entries = [.moved id (before.amountAt id) made.earning.amount])
    (closed : event.newEarnings = []) : Accounts (past ++ [event]) after := by
  have still := accounts.sound.amends amends
  obtain ⟨row, created, updated, stamp, ⟨held, rfl⟩, -, -, rfl, rows, -⟩ :=
    accounts.sound.of_amends amends
  rw [Table.amountAt_of_mem held] at noted
  have found := Table.find?_restamped rows
  refine ⟨still, ?_, ?_, fun other => ?_, fun other absent => ?_⟩
  · rw [recordsOf_logOf_concat, noted, List.map_append, List.sum_append, accounts.rows, rows,
      List.length_map]
    rfl
  · rw [recordsOf_logOf_concat, noted, List.map_append, List.sum_append, accounts.amounts, rows,
      sumAmounts_restamped before.ascending held]
    simp [AuditRecord.gain]
  · have old := accounts.chains other
    rw [movesOf_logOf_concat, noted, firstAmount_concat, closed, List.find?_nil, Option.map_none,
      Option.or_none, found other]
    generalize firstAmount past other = first at old
    cases seen : before.find? other with
    | none =>
      rw [seen] at old
      cases old with
      | none => exact .none
    | some one =>
      rw [seen] at old
      obtain ⟨member, number⟩ := Table.find?_eq_some_iff.mp seen
      cases old with
      | some chained =>
        refine .some ?_
        by_cases here : row.id = other
        · obtain rfl := Table.row_unique member held (number.trans here.symm)
          simpa [AuditRecord.move?, here, number, Row.restamped] using chained.concat
        · have apart : ¬ one.id = row.id := by omega
          simpa [AuditRecord.move?, here, apart] using chained
  · rw [found other, Option.map_eq_none_iff] at absent
    have apart : row.id ≠ other := Table.find?_eq_none_iff.mp absent row held
    rw [movesOf_logOf_concat, noted, accounts.unmoved other absent]
    simp [AuditRecord.move?, apart]

/-- A call that only reads opens no earning. -/
theorem newEarnings_of_reads {event : Event} (reads : event.turn.call.reads = true) :
    event.newEarnings = [] := by
  unfold Event.newEarnings
  split
  · next asked =>
    rw [asked] at reads
    cases reads
  · next asked =>
    rw [asked] at reads
    cases reads
  · rfl

/-- **One call keeps the log and the table in step.** -/
theorem step {turn : Turn} (accounts : Accounts past before)
    (stored : (turn.reply (some before)).store = some after) :
    Accounts (past ++ [turn.event (some before)]) after := by
  rcases turn.reply_cases before with ⟨failure, failed, kept⟩ | ⟨answer, left, done, same, effect⟩
  · cases kept.symm.trans stored
    refine accounts.unchanged (Call.records_of_error accounts.sound failed) ?_
    simp [Event.newEarnings, Turn.event, failed]
  · cases same.symm.trans stored
    have noted : recordsOf (turn.event (some before)).entries = turn.call.records before answer :=
      Call.records_of_ok accounts.sound done
    have answered : (turn.event (some before)).outcome = .ok answer := done
    obtain ⟨env, call⟩ := turn
    cases effect with
    | read reads =>
      refine accounts.unchanged ?_ (newEarnings_of_reads reads)
      exact Call.records_of_reads reads env (some before)
    | created admitted stores =>
      refine accounts.stores stores ?_ ?_ ?_ fun id => ?_
      · unfold Event.newEarnings
        rw [answered]
        rfl
      · rw [noted]
        rfl
      · rw [noted]
        rfl
      · rw [noted]
        rfl
    | createdNone admitted =>
      refine accounts.unchanged noted ?_
      unfold Event.newEarnings
      rw [answered]
      rfl
    | @createdMany batch drafts _ admitted filled stores =>
      have more : earningsFrom env.now (before.highest + 1) drafts ≠ [] := by
        cases drafts with
        | nil => exact absurd rfl filled
        | cons draft rest => exact List.cons_ne_nil _ _
      have noted : recordsOf (Turn.event ⟨env, .createBatch batch⟩ (some before)).entries =
          [.openedMany drafts.length
            (totalAmount (earningsFrom env.now (before.highest + 1) drafts))] := by
        rw [noted, Call.records, if_neg more, length_earningsFrom]
      refine accounts.stores stores ?_ ?_ ?_ fun id => ?_
      · unfold Event.newEarnings
        rw [answered]
        rfl
      · rw [noted]
        exact Int.add_zero _
      · rw [noted]
        exact Int.add_zero _
      · rw [noted]
        rfl
    | amended asks key amends =>
      refine accounts.amends amends ?_ ?_
      · rw [noted]
        cases asks <;> rfl
      · unfold Event.newEarnings
        rw [answered]
        cases asks <;> rfl

end Accounts

/-- **The log accounts for the table.**  Behind every run from a ledger without rows,
whatever was refused or struck on the way, the audit records of the log count the rows
and add up to their amounts.  The changes that are recorded of an earning lead, each from
where the one before it ended, from the amount that the earning was opened with to the
amount in its row; of an identifier without a row no change is recorded. -/
theorem log_accounts_for_table (trigger : Bool) (turns : List Turn) :
    let past := history (freshStore trigger) turns
    let records := recordsOf (logOf past)
    ∃ after, storeAfter (freshStore trigger) turns = some after ∧
      (records.map AuditRecord.rows).sum = after.rows.length ∧
      (records.map AuditRecord.gain).sum = sumAmounts after.rows ∧
      (∀ row ∈ after.rows, ∃ first, firstAmount past row.id = some first ∧
        Chained first (movesOf row.id (logOf past)) row.cells.amount) ∧
      ∀ id, (∀ row ∈ after.rows, row.id ≠ id) →
        firstAmount past id = none ∧ movesOf id (logOf past) = [] := by
  intro past records
  obtain ⟨after, left, accounts⟩ :=
    history_after (R := Accounts) (fun accounts stored => accounts.step stored) [] (.fresh trigger) turns
  have accounts : Accounts past after := accounts
  refine ⟨after, left, accounts.rows, accounts.amounts, fun row member => ?_, fun id absent => ?_⟩
  · have chained := accounts.chains row.id
    rw [Table.find?_eq_some_iff.mpr ⟨member, rfl⟩] at chained
    generalize firstAmount past row.id = first at chained
    cases chained with
    | some chained => exact ⟨_, rfl, chained⟩
  · have none := Table.find?_eq_none_iff.mpr absent
    have opened := accounts.chains id
    rw [none] at opened
    generalize firstAmount past id = first at opened
    cases opened with
    | none => exact ⟨rfl, accounts.unmoved id none⟩

/-- Of a batch, a change, a change that would overdraw and a change that is struck at its
commit, the first two are recorded. -/
example :
    let usual : Environment := .usual ⟨10, by decide⟩
    let item (amount : Int) : Value := .dict [(.text "miner_id", .int 5), (.text "pool_id", .int 6),
      (.text "challenge_id", .int 7), (.text "amount", .int amount)]
    let turns : List Turn := [⟨usual, .createBatch (.list [item 40, item 2])⟩,
      ⟨usual, .addAmount (.int 1) (.int (-10))⟩, ⟨usual, .addAmount (.int 2) (.int (-3))⟩,
      ⟨{ usual with injection := some ⟨.commit, .full⟩ }, .updateAmount (.int 2) (.int 9)⟩]
    recordsOf (logOf (history (freshStore true) turns)) = [.openedMany 2 42, .moved 1 40 30] := by
  rfl

end EarningsLedger
