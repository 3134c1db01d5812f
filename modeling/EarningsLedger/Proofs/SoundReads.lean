import EarningsLedger.Proofs.SoundTables

/-!
# Reading sound tables

A sound table can always be shown: each of its rows makes an earning, and each of these
a receipt.  So an operation on a filter can only end in a failure for one of two
reasons: the statement is struck, or a number of the filter does not fit the driver.
-/

namespace EarningsLedger

open Calendar Check Storage

/-! ## Receipts -/

/-- The earnings whose owners are numbered by keys. -/
structure Earning.Keyed (earning : Earning) : Prop where
  miner : isKey earning.miner = true
  pool : isKey earning.pool = true
  challenge : isKey earning.challenge = true

/-- An earning with keys makes a receipt, with the same numbers and moments. -/
theorem Earning.receipt_eq_ok {earning : Earning} (keyed : earning.Keyed) :
    earning.receipt = .ok
      ⟨⟨⟨earning.miner, keyed.miner⟩, ⟨earning.pool, keyed.pool⟩,
        ⟨earning.challenge, keyed.challenge⟩⟩,
        earning.id, earning.amount, earning.created, earning.updated⟩ := by
  have owner : Owner.check earning.fields = .ok
      ⟨⟨earning.miner, keyed.miner⟩, ⟨earning.pool, keyed.pool⟩,
        ⟨earning.challenge, keyed.challenge⟩⟩ := by
    refine map_eq_ok_iff.mpr ⟨(_, _, _), Verdict.both_eq_ok.mpr
      ⟨?_, Verdict.both_eq_ok.mpr ⟨?_, ?_⟩⟩, rfl⟩
    · exact required_eq_ok_iff.mpr ⟨_, rfl, key_eq_ok_iff.mpr rfl⟩
    · exact required_eq_ok_iff.mpr ⟨_, rfl, key_eq_ok_iff.mpr rfl⟩
    · exact required_eq_ok_iff.mpr ⟨_, rfl, key_eq_ok_iff.mpr rfl⟩
  have rest : ∀ {α : Type} {name : String} {rule : Rule α} {value : Value} {a : α},
      earning.fields.get? name = some value → rule value = .ok a →
        required earning.fields name rule = .ok a :=
    fun held passes => required_eq_ok_iff.mpr ⟨_, held, passes⟩
  refine map_eq_ok_iff.mpr ⟨(_, _, _, _, _), Verdict.both_eq_ok.mpr
    ⟨owner, Verdict.both_eq_ok.mpr ⟨rest rfl rfl, Verdict.both_eq_ok.mpr
      ⟨rest rfl rfl, Verdict.both_eq_ok.mpr ⟨rest rfl rfl, rest rfl rfl⟩⟩⟩⟩, rfl⟩

variable {table : Table}

/-- Rows of a sound table make earnings with keys. -/
theorem Storage.Table.Sound.mapM_ofRow (sound : table.Sound) (rows : List Row)
    (members : ∀ row ∈ rows, row ∈ table.rows) :
    ∃ earnings, rows.mapM Earning.ofRow = .ok earnings ∧
      ∀ earning ∈ earnings, earning.Keyed := by
  rcases mapM_cases Earning.ofRow rows with ⟨earnings, read, pairs⟩ | ⟨row, member, _, fails, -⟩
  · refine ⟨earnings, read, fun earning drawn => ?_⟩
    obtain ⟨row, member, here⟩ := exists_of_forall₂_right pairs drawn
    have cells := sound.cells row (members row member)
    obtain ⟨created, updated, -, whole⟩ := sound.ofRow (members row member)
    obtain rfl := Except.ok.inj (whole.symm.trans here)
    exact ⟨cells.miner, cells.pool, cells.challenge⟩
  · obtain ⟨_, _, -, whole⟩ := sound.ofRow (members row member)
    rw [whole] at fails
    cases fails

/-- Earnings with keys all make receipts. -/
theorem Reading.outcome_receipts {earnings : List Earning}
    (keyed : ∀ earning ∈ earnings, earning.Keyed) :
    ∃ shown, (Reading.receipts earnings).outcome = .ok shown := by
  rcases mapM_cases Earning.receipt earnings with ⟨shown, made, -⟩ | ⟨earning, member, _, fails, -⟩
  · exact ⟨shown, by simp [Reading.receipts, made, Except.mapError]⟩
  · rw [Earning.receipt_eq_ok (keyed earning member)] at fails
    cases fails

/-! ## Rows of a selection -/

namespace Reading

variable {env : Environment}

/-- A statement that is not struck gives the picked rows, unless a number is too large
for the driver. -/
theorem rows_of_calm (calm : strike env.injection .execute = .ok ()) (selection : Selection) :
    rows env (some table) selection =
      if selection.storable then .ok (table.select selection) else .error .tooLarge := by
  unfold rows
  rw [calm]
  rfl

theorem rows_of_struck {fault : Fault} (struck : strike env.injection .execute = .error fault)
    (store : Store) (selection : Selection) : rows env store selection = .error fault := by
  unfold rows
  rw [struck]
  rfl

/-- A look-up that is not struck gives the row of the identifier, if there is one. -/
theorem earningAt_of_calm (table : Table) (calm : strike env.injection .get = .ok ()) (id : Int) :
    earningAt env (some table) id =
      (table.find? id).elim (.ok none) fun row => (Earning.ofRow row).map some := by
  unfold earningAt
  rw [calm]
  simp only [Bind.bind, Except.bind]
  cases table.find? id <;> rfl

/-- The rows on a page are rows of the table. -/
theorem mem_of_mem_page {selection : Selection} {skip : Nat} {limit : Int} {row : Row}
    (member : row ∈ pageOf skip limit (table.select selection)) : row ∈ table.rows := by
  have picked : row ∈ table.select selection := by
    unfold pageOf at member
    split at member
    · exact List.mem_of_mem_drop member
    · exact List.mem_of_mem_drop (List.mem_of_mem_take member)
  exact (List.mem_filter.mp picked).1

/-- Whether the driver can take every number of the statement for a page. -/
def pageFits (f : Filter) : Bool :=
  (selectionOf f true).storable && isStorable f.skip && isStorable f.limit

/-- Rows that are given are the picked ones. -/
theorem rows_of_ok {selection : Selection} {picked : List Row}
    (given : rows env (some table) selection = .ok picked) : picked = table.select selection := by
  obtain ⟨_, calm, -⟩ := bind_eq_ok_iff.mp given
  rw [rows_of_calm calm] at given
  split at given
  · exact (Except.ok.inj given).symm
  · cases given

/-- A page that is read is read row by row. -/
theorem pageRows_of_ok {f : Filter} {earnings : List Earning}
    (listed : pageRows env (some table) f = .ok earnings) :
    (pageOf f.skip f.limit (table.select (selectionOf f true))).mapM Earning.ofRow =
      .ok earnings := by
  obtain ⟨picked, given, read⟩ := bind_eq_ok_iff.mp listed
  rw [rows_of_ok given] at read
  split at read
  · exact read
  · cases read

/-- The earnings that are found are those on the page. -/
theorem pageRows_of_queryFilter {store : Store} {f : Filter} {listed : List Earning}
    (found : (queryFilter env store f).outcome = .ok listed) :
    pageRows env store f = .ok listed := by
  obtain ⟨shown, read, whole⟩ := Audited.outcome_bind_eq_ok_iff.mp found
  obtain rfl := Except.ok.inj whole
  rw [outcome_readOutcome] at read
  exact mapError_eq_ok_iff.mp read

/-- A page of a sound table is read, unless a number is too large for the driver. -/
theorem pageRows_of_calm (sound : table.Sound)
    (calm : strike env.injection .execute = .ok ()) (f : Filter) :
    ∃ earnings, (∀ earning ∈ earnings, earning.Keyed) ∧
      pageRows env (some table) f =
        if pageFits f then .ok earnings else .error .tooLarge := by
  obtain ⟨earnings, read, keyed⟩ := sound.mapM_ofRow (pageOf f.skip f.limit
    (table.select (selectionOf f true))) fun row member => mem_of_mem_page member
  refine ⟨earnings, keyed, ?_⟩
  unfold pageRows pageFits
  rw [rows_of_calm calm]
  cases (selectionOf f true).storable with
  | false => rfl
  | true =>
    cases isStorable f.skip with
    | false => rfl
    | true =>
      cases isStorable f.limit with
      | false => rfl
      | true => exact read

/-- What becomes of a page of a sound table when its statements are not struck: the page
is shown, unless a number is too large for the driver. -/
theorem outcome_pageOfFilter_of_calm (sound : table.Sound)
    (calm : strike env.injection .execute = .ok ()) (f : Filter) :
    ∃ page, (pageOfFilter env (some table) f).outcome =
      if pageFits f then .ok page else .error Fault.tooLarge.metReading := by
  obtain ⟨earnings, keyed, read⟩ := pageRows_of_calm sound calm f
  obtain ⟨shown, made⟩ := outcome_receipts keyed
  cases fits : pageFits f with
  | false =>
    refine ⟨⟨[], []⟩, ?_⟩
    rw [fits] at read
    refine Audited.outcome_bind_of_error (Audited.outcome_bind_of_error ?_)
    rw [outcome_readOutcome, read]
    rfl
  | true =>
    have picks : (selectionOf f true).storable = true := by
      simp only [pageFits, Bool.and_eq_true] at fits
      exact fits.1.1
    have found : (queryFilter env (some table) f).outcome = .ok earnings := by
      refine Audited.outcome_bind_eq_ok_iff.mpr ⟨earnings, ?_, rfl⟩
      rw [outcome_readOutcome, read, fits]
      rfl
    have total : (countFilter env (some table) f true).outcome =
        .ok ((table.select (selectionOf f true)).length : Int) := by
      unfold countFilter
      rw [outcome_readOutcome, rows_of_calm calm, picks]
      rfl
    exact ⟨_, Audited.outcome_bind_eq_ok_iff.mpr ⟨_, found, Audited.outcome_bind_eq_ok_iff.mpr
      ⟨_, total, Audited.outcome_bind_eq_ok_iff.mpr ⟨_, made, rfl⟩⟩⟩⟩

/-- A page whose first statement is struck ends in that fault. -/
theorem outcome_pageOfFilter_of_struck {fault : Fault}
    (struck : strike env.injection .execute = .error fault) (store : Store) (f : Filter) :
    (pageOfFilter env store f).outcome = .error fault.metReading := by
  refine Audited.outcome_bind_of_error (Audited.outcome_bind_of_error ?_)
  unfold pageRows
  rw [outcome_readOutcome, rows_of_struck struck]
  rfl

end Reading

/-- An answered query has read the page of its filter. -/
theorem Call.page_of_query {ready : Option Filter} {named : Value} {store : Store}
    {answer : Answer} (done : ((query ready named).run env store).outcome = .ok answer) :
    ∃ f listed, (filterFor env "query" ready named).outcome = .ok f ∧
      Reading.pageRows env store f = .ok listed ∧ answer = .earnings listed := by
  obtain ⟨f, filtered, queried⟩ := Audited.outcome_bind_eq_ok_iff.mp done
  rw [Audited.outcome_map] at queried
  obtain ⟨listed, read, rfl⟩ := map_eq_ok_iff.mp queried
  exact ⟨f, listed, filtered, Reading.pageRows_of_queryFilter read, rfl⟩

/-- How a page of a sound table may end: its request is refused, its statement is struck
or holds a number that is too large for the driver, or the page is shown. -/
theorem Call.outcome_queryPage (sound : table.Sound) (env : Environment) (ready : Option Filter)
    (named : Value) :
    (∃ failure, (filterFor env "query_page" ready named).outcome = .error failure ∧
      ((queryPage ready named).run env (some table)).outcome = .error failure) ∨
    (∃ fault, (strike env.injection .execute = .error fault ∨ fault = .tooLarge) ∧
      ((queryPage ready named).run env (some table)).outcome = .error fault.metReading) ∨
    ∃ page, ((queryPage ready named).run env (some table)).outcome = .ok (.page page) := by
  cases filtered : (filterFor env "query_page" ready named).outcome with
  | error failure => exact .inl ⟨failure, rfl, Audited.outcome_bind_of_error filtered⟩
  | ok f =>
    have reply : ((queryPage ready named).run env (some table)).outcome =
        (Reading.pageOfFilter env (some table) f).outcome.map .page :=
      (Audited.outcome_bind_of_ok filtered).trans (Audited.outcome_map _ _)
    rw [reply]
    cases struck : strike env.injection .execute with
    | error fault =>
      refine .inr (.inl ⟨fault, .inl rfl, ?_⟩)
      rw [Reading.outcome_pageOfFilter_of_struck struck]
      rfl
    | ok _ =>
      obtain ⟨page, ended⟩ := Reading.outcome_pageOfFilter_of_calm sound struck f
      rw [ended]
      split
      · exact .inr (.inr ⟨page, rfl⟩)
      · exact .inr (.inl ⟨_, .inr rfl, rfl⟩)

/-- **Every stored row is sound and can be shown.**  Behind every run from a ledger
without rows, whatever was asked, refused or struck on the way: no identifier comes
twice, all are positive and not above the counter, owners are numbered by keys, amounts
are not negative and fit their cells, and no row was changed before it was created.  So
every row makes an earning, and the earning a receipt, and a request for a page never
fails over a row that it should show. -/
theorem stored_rows_sound_and_shown (trigger : Bool) (turns : List Turn) :
    ∃ after, storeAfter (freshStore trigger) turns = some after ∧
      (after.rows.map Row.id).Nodup ∧
      (∀ row ∈ after.rows,
        (0 < row.id ∧ row.id ≤ after.counter) ∧
        (isKey row.cells.miner = true ∧ isKey row.cells.pool = true ∧
          isKey row.cells.challenge = true) ∧
        (0 ≤ row.cells.amount ∧ row.cells.amount ≤ storedHigh) ∧
        ∃ created updated : Instant, created ≤ updated ∧
          ∃ earning receipt,
            earning = ⟨row.id, row.cells.miner, row.cells.pool, row.cells.challenge,
              row.cells.amount, .plain created, .plain updated⟩ ∧
            Earning.ofRow row = .ok earning ∧ earning.receipt = .ok receipt) ∧
      ∀ (env : Environment) (ready : Option Filter) (named : Value),
        (∃ failure, (Call.filterFor env "query_page" ready named).outcome = .error failure ∧
          ((Call.queryPage ready named).run env (some after)).outcome = .error failure) ∨
        (∃ fault, (strike env.injection .execute = .error fault ∨ fault = .tooLarge) ∧
          ((Call.queryPage ready named).run env (some after)).outcome =
            .error fault.metReading) ∨
        ∃ page, ((Call.queryPage ready named).run env (some after)).outcome = .ok (.page page) := by
  obtain ⟨after, left, sound⟩ := sound_after trigger turns
  refine ⟨after, left, ?_, fun row member => ?_, Call.outcome_queryPage sound⟩
  · exact List.pairwise_map.mpr (after.ascending.imp fun lower => Int.ne_of_lt lower)
  · have cells := sound.cells row member
    obtain ⟨created, updated, ordered, read⟩ := sound.ofRow member
    refine ⟨sound.ids row member, ⟨cells.miner, cells.pool, cells.challenge⟩, cells.amount,
      created, updated, ordered, _, _, rfl, read, Earning.receipt_eq_ok ?_⟩
    exact ⟨cells.miner, cells.pool, cells.challenge⟩

end EarningsLedger
