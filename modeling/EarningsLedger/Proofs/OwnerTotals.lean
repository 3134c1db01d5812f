import EarningsLedger.Proofs.MatchingRows
import EarningsLedger.Proofs.AuditTrail
import Mathlib.Algebra.Order.BigOperators.Group.List

/-!
# What an owner's earnings add up to

Counts and sums are asked for with a filter, but look at the owner's numbers only: not at
the page, and not at the last identifier seen.  The number of the earnings, their sum and
the sums of the miners come from three statements, and the last of them from a filter that
is built anew; `totals_agree_with_rows` says that all of them are about the same rows, and
agree with each other.

Sums are exact.  One that no cell can hold is an error, and since amounts are not negative
the sums of the miners fit wherever the sum of all earnings does.
-/

namespace EarningsLedger

open Check Storage

/-! ## Miners -/

namespace Storage

theorem mem_insertMiner {n m : Int} {miners : List Int} :
    m ∈ insertMiner n miners ↔ m = n ∨ m ∈ miners := by
  induction miners with
  | nil => simp [insertMiner]
  | cons first rest ih =>
    unfold insertMiner
    split
    · simp
    · split
      · next same => simp [same]
      · rw [List.mem_cons, List.mem_cons, ih]
        exact or_left_comm

theorem ascending_insertMiner {n : Int} {miners : List Int} (sorted : miners.Pairwise (· < ·)) :
    (insertMiner n miners).Pairwise (· < ·) := by
  induction miners with
  | nil => exact List.pairwise_singleton _ _
  | cons first rest ih =>
    obtain ⟨lower, sorted⟩ := List.pairwise_cons.mp sorted
    unfold insertMiner
    split
    · next below =>
      refine List.pairwise_cons.mpr ⟨fun m member => ?_, List.pairwise_cons.mpr ⟨lower, sorted⟩⟩
      rcases List.mem_cons.mp member with rfl | later
      · exact below
      · exact Int.lt_trans below (lower m later)
    · split
      · exact List.pairwise_cons.mpr ⟨lower, sorted⟩
      · refine List.pairwise_cons.mpr ⟨fun m member => ?_, ih sorted⟩
        rcases mem_insertMiner.mp member with rfl | later
        · omega
        · exact lower m later

/-- The miners of rows are those that a row is of. -/
theorem mem_minersOf {rows : List Row} {miner : Int} :
    miner ∈ minersOf rows ↔ ∃ row ∈ rows, row.cells.miner = miner := by
  induction rows with
  | nil => simp [minersOf]
  | cons row rest ih =>
    show miner ∈ insertMiner row.cells.miner (minersOf rest) ↔ _
    rw [mem_insertMiner, ih, List.exists_mem_cons_iff, eq_comm]

theorem ascending_minersOf (rows : List Row) : (minersOf rows).Pairwise (· < ·) := by
  induction rows with
  | nil => exact .nil
  | cons row rest ih => exact ascending_insertMiner ih

/-! ## Sums -/

/-- The rows of a miner. -/
def ofMiner (miner : Int) (rows : List Row) : List Row :=
  rows.filter fun row => row.cells.miner == miner

/-- What rows hold, row by row. -/
def amountsOf (rows : List Row) : List Int := rows.map fun row => row.cells.amount

theorem sum_amountsOf (rows : List Row) : (amountsOf rows).sum = sumAmounts rows := by
  induction rows with
  | nil => rfl
  | cons row rest ih =>
    rw [sumAmounts_cons, ← ih]
    rfl

/-- Rows add up to what some of them and the others add up to. -/
theorem sumAmounts_filter (rows : List Row) (keep : Row → Bool) :
    sumAmounts (rows.filter keep) + sumAmounts (rows.filter fun row => !keep row) =
      sumAmounts rows := by
  induction rows with
  | nil => rfl
  | cons row rest ih =>
    rw [List.filter_cons, List.filter_cons, sumAmounts_cons, ← ih]
    cases keep row with
    | true => exact Int.add_assoc ..
    | false => exact Int.add_left_comm ..

theorem sumAmounts_nonneg {rows : List Row} (amounts : ∀ row ∈ rows, 0 ≤ row.cells.amount) :
    0 ≤ sumAmounts rows := by
  rw [← sum_amountsOf]
  refine List.sum_nonneg fun amount member => ?_
  obtain ⟨row, there, rfl⟩ := List.mem_map.mp member
  exact amounts row there

/-- No miner has more than all of them together. -/
theorem sumAmounts_ofMiner_le {rows : List Row} (amounts : ∀ row ∈ rows, 0 ≤ row.cells.amount)
    (miner : Int) : sumAmounts (ofMiner miner rows) ≤ sumAmounts rows := by
  have parts := sumAmounts_filter rows fun row => row.cells.miner == miner
  have others : 0 ≤ sumAmounts (rows.filter fun row => !(row.cells.miner == miner)) :=
    sumAmounts_nonneg fun row member => amounts row (List.mem_filter.mp member).1
  unfold ofMiner
  omega

/-- The sums of the miners add up to the sum of all rows. -/
theorem sum_ofMiner {miners : List Int} (apart : miners.Nodup) {rows : List Row}
    (covered : ∀ row ∈ rows, row.cells.miner ∈ miners) :
    (miners.map fun miner => sumAmounts (ofMiner miner rows)).sum = sumAmounts rows := by
  induction miners generalizing rows with
  | nil =>
    cases rows with
    | nil => rfl
    | cons row rest => exact absurd (covered row List.mem_cons_self) List.not_mem_nil
  | cons miner rest ih =>
    obtain ⟨new, apart⟩ := List.nodup_cons.mp apart
    have others : ∀ other ∈ rest, ofMiner other (rows.filter fun row =>
        !(row.cells.miner == miner)) = ofMiner other rows := by
      intro other member
      have different : other ≠ miner := fun same => new (same ▸ member)
      refine (List.filter_filter ..).trans (List.filter_congr fun row _ => ?_)
      by_cases here : row.cells.miner = other <;> simp [here, different]
    have covered : ∀ row ∈ rows.filter fun row => !(row.cells.miner == miner),
        row.cells.miner ∈ rest := by
      intro row member
      obtain ⟨there, other⟩ := List.mem_filter.mp member
      have different : row.cells.miner ≠ miner := by simpa using other
      exact (List.mem_cons.mp (covered row there)).resolve_left different
    have sums := ih apart covered
    rw [List.map_congr_left fun other member => congrArg sumAmounts (others other member)] at sums
    rw [List.map_cons, List.sum_cons, sums]
    exact sumAmounts_filter rows fun row => row.cells.miner == miner

/-- The exact sum of each miner of some rows, in the order of the miners. -/
def sumsOf (rows : List Row) : List (Int × Int) :=
  (minersOf rows).map fun miner => (miner, sumAmounts (ofMiner miner rows))

theorem checkedSum_eq (rows : List Row) :
    checkedSum rows =
      if sumAmounts rows ≤ storedHigh then .ok (sumAmounts rows) else .error .sumTooLarge := by
  unfold checkedSum
  by_cases fits : sumAmounts rows ≤ storedHigh
  · rw [if_pos fits, if_neg (Int.not_lt.mpr fits)]
  · rw [if_neg fits, if_pos (Int.not_le.mp fits)]

/-- The sums of the miners are given when each of them fits a cell. -/
theorem minerSums_eq (rows : List Row) :
    minerSums rows =
      if ∀ entry ∈ sumsOf rows, entry.2 ≤ storedHigh then .ok (sumsOf rows)
      else .error .sumTooLarge := by
  have one : ∀ miner, (checkedSum (ofMiner miner rows)).map (fun total => (miner, total)) =
      if sumAmounts (ofMiner miner rows) ≤ storedHigh
        then .ok (miner, sumAmounts (ofMiner miner rows)) else .error .sumTooLarge := by
    intro miner
    rw [checkedSum_eq]
    split <;> rfl
  split
  · next fits =>
    refine mapM_eq_ok_iff.mpr (List.forall₂_map_right_iff.mpr (List.forall₂_same.mpr ?_))
    intro miner member
    exact (one miner).trans (if_pos (fits _ (List.mem_map_of_mem member)))
  · next large =>
    rcases mapM_cases (fun miner =>
      (checkedSum (ofMiner miner rows)).map fun total => (miner, total)) (minersOf rows) with
      ⟨sums, -, pairs⟩ | ⟨miner, -, fault, here, stopped⟩
    · refine absurd (fun entry member => ?_) large
      obtain ⟨miner, there, rfl⟩ := List.mem_map.mp member
      obtain ⟨sum, -, done⟩ := exists_of_forall₂_left pairs there
      by_contra beyond
      rw [one, if_neg beyond] at done
      cases done
    · rw [one] at here
      split at here
      · cases here
      · obtain rfl := Except.error.inj here
        exact stopped

/-! ## What sums say -/

/-- What rows add up to, miner by miner: the miners that a row is of, ascending, each with
the exact sum of its rows. -/
structure SumsUp (rows : List Row) (sums : List (Int × Int)) : Prop where
  ascending : (sums.map Prod.fst).Pairwise (· < ·)
  miners : ∀ miner, miner ∈ sums.map Prod.fst ↔ ∃ row ∈ rows, row.cells.miner = miner
  exact : ∀ entry ∈ sums, entry.2 = (amountsOf (ofMiner entry.1 rows)).sum

theorem map_fst_sumsOf (rows : List Row) : (sumsOf rows).map Prod.fst = minersOf rows := by
  simp [sumsOf, Function.comp_def]

theorem sumsUp_sumsOf (rows : List Row) : SumsUp rows (sumsOf rows) where
  ascending := map_fst_sumsOf rows ▸ ascending_minersOf rows
  miners miner := by rw [map_fst_sumsOf, mem_minersOf]
  exact entry member := by
    obtain ⟨miner, -, rfl⟩ := List.mem_map.mp member
    exact (sum_amountsOf _).symm

/-- The miners add up to what all rows do. -/
theorem sum_sumsOf (rows : List Row) : ((sumsOf rows).map Prod.snd).sum = sumAmounts rows := by
  have apart : (minersOf rows).Nodup := (ascending_minersOf rows).imp Int.ne_of_lt
  rw [sumsOf, List.map_map]
  exact sum_ofMiner apart fun row member => mem_minersOf.mpr ⟨row, member, rfl⟩

/-- Where all rows together fit a cell, those of each miner do. -/
theorem sumsOf_fit {rows : List Row} (amounts : ∀ row ∈ rows, 0 ≤ row.cells.amount)
    (fits : sumAmounts rows ≤ storedHigh) : ∀ entry ∈ sumsOf rows, entry.2 ≤ storedHigh := by
  intro entry member
  obtain ⟨miner, -, rfl⟩ := List.mem_map.mp member
  exact Int.le_trans (sumAmounts_ofMiner_le amounts miner) fits

end Storage

/-! ## Owners -/

/-- The names of an owner make a filter with the usual length of a page. -/
theorem Wanted.outcome_buildFilter_owner (wanted : Wanted) {limits : Limits}
    (low : 1 ≤ limits.usual) (high : limits.usual ≤ PageBounds.longestLimit) :
    (buildFilter limits none [("pool_id", .ofInt? (wanted.pool.map Key.val)),
      ("challenge_id", .ofInt? (wanted.challenge.map Key.val)),
      ("miner_id", .ofInt? (wanted.miner.map Key.val))]).outcome =
        .ok (wanted.filter (min limits.usual limits.maximum) none) := by
  let owner : Fields := [("pool_id", .ofInt? (wanted.pool.map Key.val)),
    ("challenge_id", .ofInt? (wanted.challenge.map Key.val)),
    ("miner_id", .ofInt? (wanted.miner.map Key.val))]
  have apart : (owner.map Prod.fst).Nodup := by
    show ["pool_id", "challenge_id", "miner_id"].Nodup
    decide
  have given : namedFilter limits owner = owner.present ++ [("limit", .int limits.usual)] := by
    have absent : owner.present.has "limit" = false := Fields.has_present rfl
    rw [namedFilter, absent]
    rfl
  have held : ∀ {name : String}, name ≠ "limit" → (namedFilter limits owner).get? name =
      (owner.get? name).filter fun value => !value.isNull := by
    intro name other
    have last : Fields.get? [("limit", .int limits.usual)] name = none := by
      rw [Fields.get?_cons, if_neg (Ne.symm other)]
      rfl
    rw [given, Fields.get?_append, Fields.get?_present apart, last, Option.or_none]
  have long : (namedFilter limits owner).get? "limit" = some (.int limits.usual) := by
    rw [given, Fields.get?_append, Fields.get?_present apart]
    rfl
  rw [← Wanted.capped_filter]
  refine outcome_buildFilter_of_check (clashing_present rfl) ?_
  refine wanted.check_of_get? low high (by simp) ?_ long ?_ ?_ ?_ ?_
  · exact held (by decide)
  · exact (held (by decide)).trans (Wanted.present_ofInt? _)
  · exact (held (by decide)).trans (Wanted.present_ofInt? _)
  · exact (held (by decide)).trans (Wanted.present_ofInt? _)
  · exact held (by decide)

/-! ## Reading sums -/

/-- How a sum ends that no cell can hold. -/
def beyondCells : Failure := .ledger (.storage [.text "integer overflow"])

namespace Reading

variable {env : Environment} {table : Table} {f : Filter} {matching : List Row}
  (calm : strike env.injection .execute = .ok ())
  (picked : table.select (selectionOf f false) = matching)
include calm picked

/-- Sums look at the owner only, and a driver takes every owner. -/
theorem rows_of_owner : rows env (some table) (selectionOf f false) = .ok matching := by
  have picks : (selectionOf f false).storable = true :=
    storable_selectionOf_iff.mpr fun behind => Bool.false_ne_true behind.1
  rw [rows_of_calm calm, if_pos picks, picked]

/-- A count without the last identifier seen counts the rows of the owner. -/
theorem outcome_countFilter :
    (countFilter env (some table) f false).outcome = .ok (matching.length : Int) := by
  rw [countFilter, outcome_readOutcome, rows_of_owner calm picked]
  rfl

theorem outcome_totalFilter :
    (totalFilter env (some table) f).outcome =
      if sumAmounts matching ≤ storedHigh then .ok (sumAmounts matching)
      else .error beyondCells := by
  rw [totalFilter, outcome_readOutcome, rows_of_owner calm picked]
  show (checkedSum matching).mapError _ = _
  rw [checkedSum_eq]
  split <;> rfl

/-- The sums by miner are built a filter of their own, which is about the same owner. -/
theorem outcome_totalsByMiner (low : 1 ≤ env.limits.usual)
    (high : env.limits.usual ≤ PageBounds.longestLimit) :
    (totalsByMiner env (some table) (.ofInt? (f.pool.map Key.val))
      (.ofInt? (f.challenge.map Key.val)) (.ofInt? (f.miner.map Key.val))).outcome =
        if ∀ entry ∈ sumsOf matching, entry.2 ≤ storedHigh then .ok (sumsOf matching)
        else .error beyondCells := by
  have read : ∀ message event context, (readOutcome ((rows env (some table)
      (selectionOf f false)).bind minerSums) message event context).outcome =
        (minerSums matching).mapError Fault.metReading := by
    intro message event context
    rw [outcome_readOutcome, rows_of_owner calm picked]
    rfl
  refine (Audited.outcome_bind_of_ok (f.wanted.outcome_buildFilter_owner low high)).trans ?_
  rw [minerSums_eq] at read
  by_cases fits : ∀ entry ∈ sumsOf matching, entry.2 ≤ storedHigh
  · rw [if_pos fits] at read ⊢
    exact Audited.outcome_bind_of_ok (read ..)
  · rw [if_neg fits] at read ⊢
    exact Audited.outcome_bind_of_error (read ..)

theorem outcome_totalsOfFilter (low : 1 ≤ env.limits.usual)
    (high : env.limits.usual ≤ PageBounds.longestLimit)
    (amounts : ∀ row ∈ matching, 0 ≤ row.cells.amount) :
    (totalsOfFilter env (some table) f).outcome =
      if sumAmounts matching ≤ storedHigh
        then .ok ⟨matching.length, sumAmounts matching, sumsOf matching⟩
        else .error beyondCells := by
  have byMiner := outcome_totalsByMiner calm picked low high
  have counted := outcome_countFilter calm picked
  have total := outcome_totalFilter calm picked
  by_cases fits : sumAmounts matching ≤ storedHigh
  · rw [if_pos (sumsOf_fit amounts fits)] at byMiner
    rw [if_pos fits] at total ⊢
    exact Audited.outcome_bind_eq_ok_iff.mpr ⟨_, byMiner, Audited.outcome_bind_eq_ok_iff.mpr
      ⟨_, counted, Audited.outcome_bind_eq_ok_iff.mpr ⟨_, total, rfl⟩⟩⟩
  · rw [if_neg fits] at total ⊢
    split at byMiner
    · refine (Audited.outcome_bind_of_ok byMiner).trans ?_
      exact (Audited.outcome_bind_of_ok counted).trans (Audited.outcome_bind_of_error total)
    · exact Audited.outcome_bind_of_error byMiner

end Reading

/-! ## Requests -/

/-- **Counts and sums agree with the rows, and with each other.**  Behind every run from a
ledger without rows, a filter is about the rows of its owner, whatever its page and the last
identifier seen: their number is the count, their exact sum the total, and the exact sums
of the miners that occur among them, ascending, the sums by miner.  Each is given when the
sums that it shows fit a cell, and is an error of storage otherwise; a summary holds all
three, and its sums by miner add up to its total. -/
theorem totals_agree_with_rows (trigger : Bool) (turns : List Turn) {env : Environment}
    (calm : strike env.injection .execute = .ok ()) (low : 1 ≤ env.limits.usual)
    (high : env.limits.usual ≤ PageBounds.longestLimit) (f : Filter) :
    ∃ table matching sums, storeAfter (freshStore trigger) turns = some table ∧
      table.Lists f.wanted.Owns matching ∧ SumsUp matching sums ∧
      (sums.map Prod.snd).sum = (amountsOf matching).sum ∧
      ((Call.count (some f) none (.dict [])).run env (some table)).outcome =
        .ok (.number matching.length) ∧
      ((Call.totalsByMiner (.ofInt? (f.pool.map Key.val)) (.ofInt? (f.challenge.map Key.val))
        (.ofInt? (f.miner.map Key.val))).run env (some table)).outcome =
          (if ∀ entry ∈ sums, entry.2 ≤ storedHigh then .ok (.sums sums)
            else .error beyondCells) ∧
      ((Call.totalAmount (some f) (.dict [])).run env (some table)).outcome =
        (if (amountsOf matching).sum ≤ storedHigh then .ok (.number (amountsOf matching).sum)
          else .error beyondCells) ∧
      ((Call.summarize (some f) (.dict [])).run env (some table)).outcome =
        (if (amountsOf matching).sum ≤ storedHigh
          then .ok (.totals ⟨matching.length, (amountsOf matching).sum, sums⟩)
          else .error beyondCells) := by
  obtain ⟨table, left, sound⟩ := sound_after trigger turns
  obtain ⟨matching, picked⟩ : ∃ matching, table.select (Reading.selectionOf f false) = matching :=
    ⟨_, rfl⟩
  have lists : table.Lists f.wanted.Owns matching := picked ▸ f.lists_select_owner table
  have amounts : ∀ row ∈ matching, 0 ≤ row.cells.amount :=
    fun row member => (sound.cells row ((lists.mem row).mp member).1).amount.1
  have same : table.select (Reading.selectionOf (f.capped env.limits.maximum) false) =
      matching := by
    rw [f.capped_eq]
    exact picked
  have summed : (amountsOf matching).sum = sumAmounts matching := sum_amountsOf matching
  refine ⟨table, matching, sumsOf matching, left, lists, sumsUp_sumsOf matching, ?_, ?_, ?_, ?_, ?_⟩
  · rw [summed]
    exact sum_sumsOf matching
  · show (Call.countFor env (some table) (some f) none (.dict [])).outcome = _
    refine (Audited.outcome_map _ (Reading.countFilter env (some table)
      (f.capped env.limits.maximum) false)).trans ?_
    rw [Reading.outcome_countFilter calm same]
    rfl
  · refine (Audited.outcome_map ..).trans ?_
    rw [Reading.outcome_totalsByMiner calm picked low high]
    split <;> rfl
  · refine (f.outcome_ready env "total_amount" fun g =>
      Answer.number <$> Reading.totalFilter env (some table) g).trans ?_
    rw [Audited.outcome_map, Reading.outcome_totalFilter calm same, summed]
    split <;> rfl
  · refine (f.outcome_ready env "summarize" fun g =>
      Answer.totals <$> Reading.totalsOfFilter env (some table) g).trans ?_
    rw [Audited.outcome_map, Reading.outcome_totalsOfFilter calm same low high amounts, summed]
    split <;> rfl

/-- Two miners fill a cell each and a third has nothing: their sums are given one by one,
and nothing that holds all of them together is.  The count does not mind a page far behind
the last earning. -/
theorem sums_fit_where_total_does_not :
    let entry (miner amount : Int) : Value := .dict [(.text "miner_id", .int miner),
      (.text "pool_id", .int 1), (.text "challenge_id", .int 1), (.text "amount", .int amount)]
    let turns : List Turn := [⟨.usual ⟨10, by decide⟩, .createBatch (.list [entry 8 storedHigh,
      entry 2 storedHigh, entry 5 0])⟩]
    let env := Environment.usual ⟨11, by decide⟩
    let f : Filter := ⟨70, 10, none, some ⟨1, by decide⟩, none, some 900⟩
    ∃ table, storeAfter (freshStore true) turns = some table ∧
      ((Call.count (some f) none (.dict [])).run env (some table)).outcome = .ok (.number 3) ∧
      ((Call.totalsByMiner (.int 1) .null .null).run env (some table)).outcome =
        .ok (.sums [(2, storedHigh), (5, 0), (8, storedHigh)]) ∧
      ((Call.totalAmount (some f) (.dict [])).run env (some table)).outcome =
        .error beyondCells ∧
      ((Call.summarize (some f) (.dict [])).run env (some table)).outcome =
        .error beyondCells := by
  intro entry turns env f
  have calm : strike env.injection .execute = .ok () := rfl
  obtain ⟨table, matching, sums, left, -, -, whole, -, byMiner, total, summary⟩ :=
    totals_agree_with_rows true turns calm (by decide) (by decide) f
  have given : ((Call.totalsByMiner (.int 1) .null .null).run env (some table)).outcome =
      .ok (.sums [(2, storedHigh), (5, 0), (8, storedHigh)]) := by
    rw [← left]
    rfl
  have counted : ((Call.count (some f) none (.dict [])).run env (some table)).outcome =
      .ok (.number 3) := by
    rw [← left]
    rfl
  have large : ¬ (amountsOf matching).sum ≤ storedHigh := by
    rw [← whole]
    have same := byMiner.symm.trans given
    split at same
    · cases same
      decide
    · cases same
  rw [if_neg large] at total summary
  exact ⟨table, left, counted, given, total, summary⟩

end EarningsLedger
