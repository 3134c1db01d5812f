import EarningsLedger.Proofs.Histories
import EarningsLedger.Proofs.PlainStatements

/-!
# Identifiers stay fresh

Rows may be put in and taken away behind the back of a ledger, under any identifier.  The
counter of the table goes with all of it: it is the largest identifier that a row has ever
had, or zero if that is larger, whatever has become of the row since.  `Table.CountsOn`
says how one act moves the counter, and `Table.Remembers` what it has come to behind a run
of them.

New earnings get the identifiers behind the counter, one after the other.
`identifiers_stay_fresh` says so of any call behind any run of calls and plain statements,
failed ones included.
-/

namespace EarningsLedger

open Calendar Storage Writing

/-! ## Acts -/

/-- What may be done to a ledger: a call, or a plain statement behind its back. -/
inductive Act where
  | call (turn : Turn)
  | plain (now : Instant) (statement : Statement)

namespace Act

/-- The store that an act leaves behind. -/
def after (act : Act) (store : Store) : Store :=
  match act with
  | call turn => (turn.reply store).store
  | plain now statement => (statement.run now store).1

/-- Whether an act lets every row keep its identifier. -/
def keepsIds : Act → Bool
  | call _ => true
  | plain _ statement => statement.keepsIds

end Act

/-- The store that acts leave behind, one after the other. -/
def storeLeft (store : Store) : List Act → Store
  | [] => store
  | act :: rest => storeLeft (act.after store) rest

/-- The identifiers of the rows of a table, in order. -/
def Storage.Table.ids (table : Table) : List Int := table.rows.map Row.id

/-- The identifiers of all the rows that have stood in the table of a store behind one of
the acts. -/
def everUsed (store : Store) : List Act → List Int
  | [] => []
  | act :: rest => (act.after store).elim [] Table.ids ++ everUsed (act.after store) rest

/-- The largest of some identifiers, or zero if none is larger. -/
def largest (ids : List Int) : Int := ids.foldl max 0

theorem foldl_max_le_iff {ids : List Int} {start bound : Int} :
    ids.foldl max start ≤ bound ↔ start ≤ bound ∧ ∀ id ∈ ids, id ≤ bound := by
  induction ids generalizing start with
  | nil => simp
  | cons id rest ih => rw [List.foldl_cons, ih, Int.max_le, List.forall_mem_cons, and_assoc]

theorem le_largest {ids : List Int} {id : Int} (member : id ∈ ids) : id ≤ largest ids :=
  (foldl_max_le_iff.mp (Int.le_refl (largest ids))).2 id member

/-- The largest number is one of them, unless none of them is positive. -/
theorem largest_mem {ids : List Int} (positive : 0 < largest ids) : largest ids ∈ ids := by
  by_contra absent
  have below : largest ids ≤ largest ids - 1 := by
    refine foldl_max_le_iff.mpr ⟨by omega, fun id member => ?_⟩
    have bounded := le_largest member
    have differs : id ≠ largest ids := fun same => absent (same ▸ member)
    omega
  omega

/-! ## The counter -/

/-- So many identifiers from the next one on, without a gap. -/
def idsFrom (next : Int) (count : Nat) : List Int := (List.range count).map fun n : Nat => next + n

/-- Numbered rows have their identifiers without a gap. -/
theorem Storage.map_id_numbered (next : Int) (cells : List Cells) :
    (numbered next cells).map Row.id = idsFrom next cells.length := by
  induction cells generalizing next with
  | nil => rfl
  | cons first rest ih =>
    have shift : ∀ n : Nat, next + 1 + (n : Int) = next + (n + 1 : Nat) := by omega
    simp only [numbered, List.map_cons, ih, idsFrom, List.length_cons, List.range_succ_eq_map,
      List.map_map, Function.comp_def, shift]
    simp

namespace Storage.Table

variable {before after : Table}

/-- A table whose counter is not below the identifier of a row. -/
def Counted (table : Table) : Prop := ∀ row ∈ table.rows, row.id ≤ table.counter

/-- The counter of a later table: it has gone up to the identifier of one of the rows, or
stayed where it was, and no row is above it. -/
structure CountsOn (before after : Table) : Prop where
  grows : before.counter ≤ after.counter
  covers : after.Counted
  reached : after.counter = before.counter ∨ ∃ row ∈ after.rows, row.id = after.counter

theorem Counted.highest_eq (counted : before.Counted) : before.highest = before.counter :=
  Int.le_antisymm (foldl_max_le (Int.le_refl _) counted) (counter_le_highest before)

namespace CountsOn

/-- A counter that counts on is the largest of where it was and of the rows there are. -/
theorem counter_eq (counts : before.CountsOn after) :
    after.counter = after.ids.foldl max before.counter := by
  have bounds := foldl_max_le_iff.mp (Int.le_refl (after.ids.foldl max before.counter))
  apply Int.le_antisymm
  · rcases counts.reached with same | ⟨row, member, top⟩
    · rw [same]
      exact bounds.1
    · rw [← top]
      exact bounds.2 _ (List.mem_map_of_mem member)
  · refine foldl_max_le_iff.mpr ⟨counts.grows, fun id member => ?_⟩
    obtain ⟨row, there, rfl⟩ := List.mem_map.mp member
    exact counts.covers row there

/-- A table without a new identifier leaves the counter alone. -/
theorem of_ids (counted : before.Counted) (counter : after.counter = before.counter)
    (ids : ∀ row ∈ after.rows, ∃ old ∈ before.rows, old.id = row.id) : before.CountsOn after := by
  refine ⟨Int.le_of_eq counter.symm, fun row member => ?_, .inl counter⟩
  obtain ⟨old, there, same⟩ := ids row member
  rw [counter, ← same]
  exact counted old there

theorem refl (counted : before.Counted) : before.CountsOn before :=
  of_ids counted rfl fun row member => ⟨row, member, rfl⟩

theorem erase (counted : before.Counted) (id : Int) : before.CountsOn (before.erase id) :=
  of_ids counted rfl fun row member => ⟨row, (mem_rows_erase.mp member).1, rfl⟩

theorem amend (counted : before.Counted) (clock : String) (id : Int) (change : Cells → Cells) :
    before.CountsOn (before.amend clock id change) := by
  refine of_ids counted rfl fun row member => ?_
  obtain ⟨old, there, rfl⟩ := List.mem_map.mp member
  refine ⟨old, there, ?_⟩
  split <;> rfl

theorem place (counted : before.Counted) (row : Row)
    (fresh : ∀ other ∈ before.rows, other.id ≠ row.id) :
    before.CountsOn (before.place row fresh) := by
  have counter : (before.place row fresh).counter = max before.counter row.id := rfl
  refine ⟨by omega, fun other member => ?_, ?_⟩
  · rcases mem_rows_place.mp member with rfl | old
    · omega
    · have below := counted other old
      omega
  · rcases Int.le_total row.id before.counter with low | high
    · left
      omega
    · exact .inr ⟨row, mem_rows_place.mpr (.inl rfl), by omega⟩

theorem extended (counted : before.Counted) (cells : List Cells) :
    before.CountsOn (before.extended cells) := by
  by_cases none : cells = []
  · rw [none, extended_nil]
    exact refl counted
  · have top := counted.highest_eq
    have counter := counter_extended before none
    have some : 0 < cells.length := List.length_pos_iff.mpr none
    refine ⟨by omega, fun row member => ?_, .inr ?_⟩
    · rcases List.mem_append.mp member with old | new
      · have below := counted row old
        omega
      · have bounds := id_of_mem_numbered new
        omega
    · have last : before.highest + cells.length ∈
          (numbered (before.highest + 1) cells).map Row.id := by
        rw [map_id_numbered]
        refine List.mem_map.mpr ⟨cells.length - 1, List.mem_range.mpr (by omega), by omega⟩
      obtain ⟨row, member, same⟩ := List.mem_map.mp last
      exact ⟨row, List.mem_append_right _ member, same.trans counter.symm⟩

/-- A plain statement that lets every row keep its identifier counts on. -/
theorem leaves (counted : before.Counted) (leaves : Statement.Leaves before after) :
    before.CountsOn after := by
  cases leaves with
  | kept => exact refl counted
  | placed row fresh => exact place counted row fresh
  | amended clock id cells => exact amend counted clock id _
  | erased id => exact erase counted id

/-- A call counts on. -/
theorem effect {env : Environment} {call : Call} {answer : Answer} (counted : before.Counted)
    (effect : Call.Effect env before call answer after) : before.CountsOn after := by
  have grown : ∀ {drafts : List Draft}, Stores env drafts before after →
      before.CountsOn after := by
    intro drafts stores
    rw [stores.grown]
    exact extended counted _
  cases effect with
  | read reads => exact refl counted
  | created admitted stores => exact grown stores
  | createdNone admitted => exact refl counted
  | createdMany admitted some stores => exact grown stores
  | amended asks key amends =>
    cases amends
    exact amend counted ..

end CountsOn

end Storage.Table

/-- **What one act does to the counter**, while every row keeps its identifier. -/
theorem Act.countsOn {act : Act} (keeps : act.keepsIds = true) {before : Table}
    (counted : before.Counted) :
    ∃ after, act.after (some before) = some after ∧ before.CountsOn after := by
  cases act with
  | call turn =>
    rcases turn.reply_cases before with ⟨_, _, kept⟩ | ⟨_, after, _, stored, effect⟩
    · exact ⟨before, kept, .refl counted⟩
    · exact ⟨after, stored, .effect counted effect⟩
  | plain now statement =>
    obtain ⟨after, left, leaves⟩ := Statement.run_leaves keeps now before
    exact ⟨after, left, .leaves counted leaves⟩

/-! ## Runs of acts -/

/-- A table whose counter is the largest of the identifiers that were ever used. -/
structure Storage.Table.Remembers (table : Table) (used : List Int) : Prop where
  counted : table.Counted
  counter : table.counter = largest used

/-- What was used before an act is remembered behind it, with the rows that it left. -/
theorem Storage.Table.Remembers.step {before after : Table} {used : List Int}
    (remembers : before.Remembers used) (counts : before.CountsOn after) :
    after.Remembers (used ++ after.ids) := by
  refine ⟨counts.covers, ?_⟩
  rw [counts.counter_eq, remembers.counter, largest, largest, List.foldl_append]

/-- **The counter remembers every identifier that a row has ever had.** -/
theorem remembers_after (acts : List Act) (keeps : ∀ act ∈ acts, act.keepsIds = true)
    {before : Table} {used : List Int} (remembers : before.Remembers used) :
    ∃ after, storeLeft (some before) acts = some after ∧
      after.Remembers (used ++ everUsed (some before) acts) := by
  induction acts generalizing before used with
  | nil => exact ⟨before, rfl, by simpa [everUsed] using remembers⟩
  | cons act rest ih =>
    obtain ⟨middle, left, counts⟩ := act.countsOn (keeps act List.mem_cons_self) remembers.counted
    obtain ⟨after, last, still⟩ :=
      ih (fun act member => keeps act (List.mem_cons_of_mem _ member)) (remembers.step counts)
    refine ⟨after, by rw [storeLeft, left, last], ?_⟩
    rw [everUsed, left, ← List.append_assoc]
    exact still

/-! ## New earnings -/

/-- An earning that was made at an instant of what an item of a batch told. -/
def Earning.MadeOf (earning : Earning) (item : Value) (now : Instant) : Prop :=
  ∃ draft : Draft, draft.SaidBy item.entry? ∧ earning = Earning.ofDraft draft now earning.id

section New

variable {env : Environment} {before after : Table} {answer : Answer}

/-- The earnings of drafts are made of what the items of a batch told, item by item. -/
theorem madeOf_earningsFrom {items : List Value} {drafts : List Draft} (now : Instant) (next : Int)
    (said : List.Forall₂ (fun item draft => (admitItem item).outcome = .ok draft) items drafts) :
    List.Forall₂ (fun item earning => earning.MadeOf item now) items
      (earningsFrom now next drafts) := by
  induction said generalizing next with
  | nil => exact .nil
  | cons admitted rest ih => exact .cons ⟨_, admitItem_ok admitted, rfl⟩ (ih (next + 1))

/-- A batch that is answered makes an earning of every item, under the identifiers behind
the largest one, in the order of the items. -/
theorem Call.Effect.batch {batch : Value}
    (effect : Call.Effect env before (.createBatch batch) answer after) :
    ∃ items earnings, Binding.items batch = .ok items ∧ answer = .earnings earnings ∧
      earnings.map Earning.id = idsFrom (before.highest + 1) items.length ∧
      List.Forall₂ (fun item earning => earning.MadeOf item env.now) items earnings := by
  obtain ⟨drafts, admitted, rfl⟩ : ∃ drafts, (admitBatch batch).outcome = .ok drafts ∧
      answer = .earnings (earningsFrom env.now (before.highest + 1) drafts) := by
    cases effect with
    | read reads => cases reads
    | createdNone admitted => exact ⟨[], admitted, rfl⟩
    | createdMany admitted some stores => exact ⟨_, admitted, rfl⟩
    | amended asks key amends => cases asks
  obtain ⟨items, told, pairs⟩ := admitBatch_ok admitted
  refine ⟨items, _, told, rfl, ?_, madeOf_earningsFrom _ _ pairs⟩
  rw [map_id_earningsFrom, map_id_numbered, length_cellsAt, pairs.length_eq]

/-- An earning that was asked for alone is under the identifier behind the largest one. -/
theorem Call.Effect.single {arguments : Fields}
    (effect : Call.Effect env before (.create arguments) answer after) :
    ∃ earning, answer = .earning earning ∧ earning.id = before.highest + 1 := by
  cases effect with
  | read reads => cases reads
  | created admitted stores => exact ⟨_, rfl, rfl⟩
  | amended asks key amends => cases asks

/-- The rows behind an answered call have the identifiers of the rows before it, and behind
them those that it handed out, which are above all of them. -/
theorem Call.Effect.ids_after {call : Call}
    (effect : Call.Effect env before call answer after) :
    after.ids = before.ids ++ call.assigned answer ∧
      ∀ id ∈ call.assigned answer, before.highest < id := by
  have grown : ∀ {drafts : List Draft}, Stores env drafts before after →
      ∀ ids, ids = (numbered (before.highest + 1) (cellsAt env.now drafts)).map Row.id →
        after.ids = before.ids ++ ids ∧ ∀ id ∈ ids, before.highest < id := by
    rintro drafts stores _ rfl
    refine ⟨by rw [stores.grown]; exact List.map_append, fun id member => ?_⟩
    obtain ⟨row, drawn, rfl⟩ := List.mem_map.mp member
    have bounds := id_of_mem_numbered drawn
    omega
  have same : call.assigned answer = [] → after.ids = before.ids →
      after.ids = before.ids ++ call.assigned answer ∧
        ∀ id ∈ call.assigned answer, before.highest < id := by
    intro none same
    rw [none, same]
    simp
  cases effect with
  | read reads => exact same (assigned_of_reads reads answer) rfl
  | created admitted stores => exact grown stores _ rfl
  | createdNone admitted => exact same rfl rfl
  | createdMany admitted some stores => exact grown stores _ (map_id_earningsFrom ..)
  | amended asks key amends =>
    refine same (by cases asks <;> rfl) ?_
    cases amends
    refine (List.map_map ..).trans (List.map_congr_left fun row member => ?_)
    dsimp only [Function.comp]
    split <;> rfl

end New

/-- **Identifiers stay fresh.**  Whatever was done to a table since it was made, by calls
that were answered or failed, under faults or not, and by plain statements that put rows
in, change or delete them, the next call goes on from the largest identifier that a row has
ever had: a new earning gets the one behind it, the earnings of a batch the ones behind it
in the order of its items, and nothing else gets one.  So no identifier is handed out that
a row had before, even if the row is gone. -/
theorem identifiers_stay_fresh (trigger : Bool) (acts : List Act)
    (keeps : ∀ act ∈ acts, act.keepsIds = true) (turn : Turn) :
    ∃ before after, storeLeft (freshStore trigger) acts = some before ∧
      (turn.reply (some before)).store = some after ∧
      after.ids = before.ids ++ (turn.event (some before)).assigned ∧
      (∀ id ∈ (turn.event (some before)).assigned, id ∉ everUsed (freshStore trigger) acts) ∧
      ∀ answer, (turn.reply (some before)).outcome = .ok answer →
        (∀ arguments, turn.call = .create arguments →
          ∃ earning, answer = .earning earning ∧
            earning.id = largest (everUsed (freshStore trigger) acts) + 1) ∧
        ∀ batch, turn.call = .createBatch batch →
          ∃ items earnings, Binding.items batch = .ok items ∧ answer = .earnings earnings ∧
            earnings.map Earning.id =
              idsFrom (largest (everUsed (freshStore trigger) acts) + 1) items.length ∧
            List.Forall₂ (fun item earning => earning.MadeOf item turn.env.now) items earnings := by
  have fresh : (Table.empty trigger).Remembers [] :=
    ⟨fun row member => absurd member List.not_mem_nil, rfl⟩
  obtain ⟨before, left, remembers⟩ := remembers_after acts keeps fresh
  rw [List.nil_append] at remembers
  have top : largest (everUsed (freshStore trigger) acts) = before.highest := by
    rw [remembers.counted.highest_eq, remembers.counter]
    rfl
  rw [top]
  rcases turn.reply_cases before with
    ⟨failure, failed, kept⟩ | ⟨answer, after, done, stored, effect⟩
  · have none : (turn.event (some before)).assigned = [] := by
      simp [Event.assigned, Turn.event, failed]
    refine ⟨before, before, left, kept, by simp [none], by simp [none], fun answer done => ?_⟩
    rw [failed] at done
    cases done
  · have assigned : (turn.event (some before)).assigned = turn.call.assigned answer := by
      simp [Event.assigned, Turn.event, done]
    obtain ⟨ids, above⟩ := effect.ids_after
    rw [← assigned] at ids above
    refine ⟨before, after, left, stored, ids, fun id member used => ?_, fun other told => ?_⟩
    · have below := le_largest used
      have behind := above id member
      omega
    · obtain rfl := Except.ok.inj (done.symm.trans told)
      refine ⟨fun arguments asked => ?_, fun batch asked => ?_⟩
      · rw [asked] at effect
        exact effect.single
      · rw [asked] at effect
        exact effect.batch

/-- The newest row was put in by hand and taken away again, and a call was struck down: a
batch goes on behind the row that is gone. -/
theorem batch_goes_on_behind_deleted_row :
    let told : Fields := [("miner_id", .int 5), ("pool_id", .int 6), ("challenge_id", .int 7)]
    let item : Value := .dict (told.map fun field => (.text field.1, field.2))
    let env := Environment.usual ⟨10, by decide⟩
    let acts : List Act := [.call ⟨env, .create told⟩,
      .plain ⟨11, by decide⟩ (.insert (("id", .int 10) :: told)),
      .plain ⟨12, by decide⟩ (.delete (.int 10)),
      .call ⟨{ env with injection := some ⟨.commit, .noTable⟩ }, .create told⟩]
    let turn : Turn := ⟨env, .createBatch (.list [item, item])⟩
    (∀ act ∈ acts, act.keepsIds = true) ∧ everUsed (freshStore false) acts = [1, 1, 10, 1, 1] ∧
    ∃ before after earnings, storeLeft (freshStore false) acts = some before ∧
      before.ids = [1] ∧ (turn.reply (some before)).outcome = .ok (.earnings earnings) ∧
      earnings.map Earning.id = [11, 12] ∧
      (turn.reply (some before)).store = some after ∧ after.ids = [1, 11, 12] := by
  intro told item env acts turn
  have keeps : ∀ act ∈ acts, act.keepsIds = true := by decide
  have used : everUsed (freshStore false) acts = [1, 1, 10, 1, 1] := rfl
  obtain ⟨before, after, left, stored, ids, -, answered⟩ :=
    identifiers_stay_fresh false acts keeps turn
  have held : before.ids = [1] := by
    obtain rfl := Option.some.inj left
    rfl
  let answer : Answer := .earnings
    ([11, 12].map fun id => ⟨id, 5, 6, 7, 0, .plain env.now, .plain env.now⟩)
  have replied : (turn.reply (some before)).outcome = .ok answer := by
    rw [← left]
    rfl
  obtain ⟨-, batch⟩ := answered answer replied
  obtain ⟨items, earnings, asked, done, given, -⟩ := batch _ rfl
  obtain rfl := Except.ok.inj asked
  rw [done] at replied
  rw [used] at given
  have handed : (turn.event (some before)).assigned = [11, 12] := by
    simp only [Event.assigned, Turn.event, replied]
    exact given
  rw [held, handed] at ids
  exact ⟨keeps, used, before, after, earnings, left, held, replied, given, stored, ids⟩

end EarningsLedger
