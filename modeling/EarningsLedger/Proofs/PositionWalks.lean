import EarningsLedger.Proofs.MatchingRows
import EarningsLedger.Proofs.TableLineage

/-!
# Walks by position

A caller who is shown a page is told where it stands: how long the whole list is, which of
how many pages this is, and whether there is another.  All of this is computed apart from
the items, from the position, the length of a page and a count; `page_agrees_with_rows`
says that it is nevertheless true of the rows that the filter asks for, wherever the page
begins.

It follows that a walk from page to page, for as long as there is another, comes to an end
behind as many pages as the first one told, and has then shown every row once.
-/

namespace EarningsLedger

open Check Storage

/-! ## Where a page stands -/

/-- How many pages of a length a list of so many items takes. -/
def pagesFor (total step : Nat) : Nat := (total + step - 1) / step

/-- A page is one of those that a list takes exactly when it begins inside it. -/
theorem lt_pagesFor_iff {n total step : Nat} (long : 0 < step) :
    n < pagesFor total step ↔ n * step < total := by
  rw [pagesFor, ← Nat.succ_le_iff, Nat.le_div_iff_mul_le long, Nat.succ_mul]
  omega

namespace PageInfo

variable {skip step total : Nat}

/-- There is another page exactly when the list goes on behind this one. -/
theorem hasNext_of_iff :
    (PageInfo.of skip step total (min step (total - skip) : Nat)).hasNext = true ↔
      skip + step < total := by
  simp only [PageInfo.of, decide_eq_true_eq]
  omega

theorem currentPage_of (long : 0 < step) (shown : Int) :
    (PageInfo.of skip step total shown).currentPage = (skip / step + 1 : Nat) := by
  have positive : (0 : Int) < step := by omega
  show (if (0 : Int) < step then Int.fdiv skip step + 1 else 1) = _
  rw [if_pos positive, ← Int.ofNat_fdiv]
  rfl

theorem totalPages_of (long : 0 < step) (shown : Int) :
    (PageInfo.of skip step total shown).totalPages = pagesFor total step := by
  have positive : (0 : Int) < step := by omega
  have whole : (total : Int) + step - 1 = (total + step - 1 : Nat) := by omega
  show (if (0 : Int) < step then Int.fdiv (total + step - 1) step else 1) = _
  rw [if_pos positive, whole, ← Int.ofNat_fdiv]
  rfl

/-- A page that begins inside the list is one of its pages. -/
theorem page_le_pagesFor (long : 0 < step) (inside : skip < total) :
    skip / step + 1 ≤ pagesFor total step := by
  have begins : skip / step * step ≤ skip := Nat.div_mul_le_self skip step
  exact (lt_pagesFor_iff long).mpr (by omega)

/-- Where pages begin at multiples of their length, the list goes on behind one exactly
when it is not the last. -/
theorem goes_on_iff (long : 0 < step) (aligned : step ∣ skip) :
    skip + step < total ↔ skip / step + 1 < pagesFor total step := by
  rw [lt_pagesFor_iff long, Nat.succ_mul, Nat.div_mul_cancel aligned]

/-- The last page of a walk is the last page of the list, or its only one. -/
theorem last_page (long : 0 < step) (aligned : step ∣ skip) (inside : skip = 0 ∨ skip < total)
    (ends : ¬ skip + step < total) : skip / step + 1 = max 1 (pagesFor total step) := by
  rw [goes_on_iff long aligned, Nat.not_lt] at ends
  rcases inside with rfl | inside
  · rw [Nat.zero_div] at ends ⊢
    exact (Nat.max_eq_left ends).symm
  · have among := page_le_pagesFor long inside
    rw [Nat.le_antisymm among ends]
    exact (Nat.max_eq_right (Nat.le_trans (Nat.le_add_left 1 _) among)).symm

end PageInfo

/-! ## Items of a page -/

/-- A receipt that shows an earning, field for field. -/
def Receipt.Shows (receipt : Receipt) (earning : Earning) : Prop :=
  ∀ name, receipt.fields.get? name = earning.fields.get? name

theorem Receipt.shows_of_receipt {earning : Earning} (keyed : earning.Keyed) {receipt : Receipt}
    (made : earning.receipt = .ok receipt) : receipt.Shows earning := by
  rw [Earning.receipt_eq_ok keyed] at made
  obtain rfl := Except.ok.inj made
  intro name
  by_cases here : "id" = name
  · subst here
    rfl
  · -- the identifier comes first in one of them and behind the owner in the other
    simp only [Receipt.fields, Earning.fields, Owner.fields, List.cons_append, List.nil_append,
      Fields.get?_cons, if_neg here]
    rfl

/-- Earnings with keys are shown by their receipts, item by item. -/
theorem Reading.receipts_show {earnings : List Earning}
    (keyed : ∀ earning ∈ earnings, earning.Keyed) :
    ∃ shown, (Reading.receipts earnings).outcome = .ok shown ∧
      List.Forall₂ Receipt.Shows shown earnings := by
  obtain ⟨shown, made⟩ := Reading.outcome_receipts keyed
  refine ⟨shown, made, ?_⟩
  have pairs := mapM_eq_ok_iff.mp (mapError_eq_ok_iff.mp made)
  clear made
  induction pairs with
  | nil => exact .nil
  | cons here rest ih =>
    exact .cons (Receipt.shows_of_receipt (keyed _ List.mem_cons_self) here)
      (ih fun earning member => keyed earning (List.mem_cons_of_mem _ member))

/-! ## How many rows there are -/

/-- Rows in order between two bounds are no more than fit between them. -/
theorem Storage.length_le_of_ascending {rows : List Row} (sorted : Ascending rows) {low top : Int}
    (least : low ≤ top) (bounds : ∀ row ∈ rows, low < row.id ∧ row.id ≤ top) :
    (rows.length : Int) ≤ top - low := by
  induction rows generalizing low with
  | nil =>
    rw [List.length_nil]
    omega
  | cons row rest ih =>
    obtain ⟨lower, sorted⟩ := List.pairwise_cons.mp sorted
    have here := bounds row List.mem_cons_self
    have others := ih sorted here.2 fun other member =>
      ⟨lower other member, (bounds other (List.mem_cons_of_mem _ member)).2⟩
    rw [List.length_cons]
    omega

/-- A list of rows of a table whose identifiers fit their cells is no longer than they
reach. -/
theorem Storage.Table.Roomy.length_le {table : Table} (roomy : table.Roomy) {P : Row → Prop}
    {rows : List Row} (lists : table.Lists P rows) : (rows.length : Int) ≤ storedHigh := by
  have low : (0 : Int) ≤ storedHigh := by decide
  have bounds : ∀ row ∈ rows, 0 < row.id ∧ row.id ≤ storedHigh := by
    intro row member
    have there := ((lists.mem row).mp member).1
    exact ⟨(roomy.sound.ids row there).1, Int.le_trans (Table.id_le_highest there) roomy.room⟩
  have fits := length_le_of_ascending lists.ascending low bounds
  omega

/-! ## One page -/

/-- The filter with its page at another position. -/
def Filter.startingAt (f : Filter) (skip : Nat) : Filter := { f with skip := skip }

/-- What the pages of a filter are cut from: the earnings of the rows that it asks for, in
steps of the length of a page. -/
structure Filter.Paged (f : Filter) (env : Environment) (table : Table) (step : Nat)
    (earnings : List Earning) : Prop where
  sound : table.Sound
  calm : strike env.injection .execute = .ok ()
  measured : f.Measured
  length : (step : Int) = min f.limit env.limits.maximum
  long : 0 < step
  seen : ¬ f.SeenBeyond
  read : (table.select (Reading.selectionOf f true)).mapM Earning.ofRow = .ok earnings

namespace Filter.Paged

variable {f : Filter} {env : Environment} {table : Table} {step : Nat} {earnings : List Earning}

/-- The filter of a page fits the driver when its position does. -/
theorem fits (paged : f.Paged env table step earnings) {skip : Nat}
    (inside : (skip : Int) ≤ storedHigh) :
    Reading.pageFits ((f.startingAt skip).capped env.limits.maximum) = true := by
  have positive : 1 ≤ env.limits.maximum := by
    have least := paged.length ▸ Int.min_le_right f.limit env.limits.maximum
    have long := paged.long
    omega
  have measured : (f.startingAt skip).Measured := paged.measured
  refine (Reading.pageFits_iff (Filter.measured_capped measured positive)).mpr ?_
  rw [Filter.capped_eq]
  exact ⟨Int.not_lt.mpr inside, paged.seen⟩

/-- The page of a filter at a position is a part of what the pages are cut from. -/
theorem pageRows (paged : f.Paged env table step earnings) {skip : Nat}
    (inside : (skip : Int) ≤ storedHigh) :
    Reading.pageRows env (some table) ((f.startingAt skip).capped env.limits.maximum) =
      .ok ((earnings.drop skip).take step) := by
  have pairs := List.forall₂_take step (List.forall₂_drop skip (mapM_eq_ok_iff.mp paged.read))
  have whole : ¬ (step : Int) < 0 := by omega
  rw [Wanted.pageRows_of_fits paged.calm (paged.fits inside), Filter.capped_eq]
  show (pageOf skip (min f.limit env.limits.maximum) _).mapM Earning.ofRow = _
  rw [← paged.length, pageOf, if_neg whole]
  exact mapM_eq_ok_iff.mpr pairs

theorem outcome_queryFilter (paged : f.Paged env table step earnings) {skip : Nat}
    (inside : (skip : Int) ≤ storedHigh) :
    (Reading.queryFilter env (some table)
      ((f.startingAt skip).capped env.limits.maximum)).outcome =
        .ok ((earnings.drop skip).take step) := by
  refine Audited.outcome_bind_eq_ok_iff.mpr ⟨_, ?_, rfl⟩
  rw [outcome_readOutcome, paged.pageRows inside]
  rfl

theorem query (paged : f.Paged env table step earnings) {skip : Nat}
    (inside : (skip : Int) ≤ storedHigh) :
    ((Call.query (some (f.startingAt skip)) (.dict [])).run env (some table)).outcome =
      .ok (.earnings ((earnings.drop skip).take step)) := by
  have replied := (f.startingAt skip).outcome_ready env "query" fun g =>
    Answer.earnings <$> Reading.queryFilter env (some table) g
  rw [Audited.outcome_map, paged.outcome_queryFilter inside] at replied
  exact replied

theorem outcome_countFilter (paged : f.Paged env table step earnings) {skip : Nat}
    (inside : (skip : Int) ≤ storedHigh) :
    (Reading.countFilter env (some table)
      ((f.startingAt skip).capped env.limits.maximum) true).outcome =
        .ok (earnings.length : Int) := by
  have same : (table.select (Reading.selectionOf f true)).length = earnings.length :=
    (mapM_eq_ok_iff.mp paged.read).length_eq
  have picks := paged.fits inside
  simp only [Reading.pageFits, Bool.and_eq_true] at picks
  rw [Reading.countFilter, outcome_readOutcome, Reading.rows_of_calm paged.calm, if_pos picks.1.1,
    Filter.capped_eq, ← same]
  rfl

theorem keyed (paged : f.Paged env table step earnings) :
    ∀ earning ∈ earnings, earning.Keyed := by
  obtain ⟨found, read, keyed⟩ := paged.sound.mapM_ofRow
    (table.select (Reading.selectionOf f true)) fun row member => (List.mem_filter.mp member).1
  obtain rfl := Except.ok.inj (read.symm.trans paged.read)
  exact keyed

/-- **The page at a position**: the receipts of its earnings, and where they stand. -/
theorem page (paged : f.Paged env table step earnings) {skip : Nat}
    (inside : (skip : Int) ≤ storedHigh) :
    ∃ page, ((Call.queryPage (some (f.startingAt skip)) (.dict [])).run env (some table)).outcome =
        .ok (.page page) ∧
      List.Forall₂ Receipt.Shows page.items ((earnings.drop skip).take step) ∧
      page.standing = (PageInfo.of skip step earnings.length
        (min step (earnings.length - skip) : Nat)).fields := by
  obtain ⟨shown, made, shows⟩ := Reading.receipts_show fun earning member =>
    paged.keyed earning (List.mem_of_mem_drop (List.mem_of_mem_take member))
  have ended : (Reading.pageOfFilter env (some table)
      ((f.startingAt skip).capped env.limits.maximum)).outcome =
        .ok ⟨shown, (PageInfo.of skip step earnings.length
          (min step (earnings.length - skip) : Nat)).fields⟩ := by
    refine Audited.outcome_bind_eq_ok_iff.mpr ⟨_, paged.outcome_queryFilter inside,
      Audited.outcome_bind_eq_ok_iff.mpr ⟨_, paged.outcome_countFilter inside,
        Audited.outcome_bind_eq_ok_iff.mpr ⟨_, made, ?_⟩⟩⟩
    rw [Filter.capped_eq, paged.length, List.length_take, List.length_drop]
    rfl
  have replied := (f.startingAt skip).outcome_ready env "query_page" fun g =>
    Answer.page <$> Reading.pageOfFilter env (some table) g
  rw [Audited.outcome_map, ended] at replied
  exact ⟨_, replied, shows, rfl⟩

end Filter.Paged

/-! ## Walks -/

/-- A walk from a position: it shows a page, and goes on a step further for as long as the
page says that there is another. -/
inductive PositionWalk (env : Environment) (store : Store) (f : Filter) (step : Nat) :
    Nat → List Page → Prop
  | last {skip : Nat} {page : Page}
    (shown : ((Call.queryPage (some (f.startingAt skip)) (.dict [])).run env store).outcome =
      .ok (.page page))
    (ends : page.standing.get? "has_next" = some (.bool false)) :
    PositionWalk env store f step skip [page]
  | next {skip : Nat} {page : Page} {rest : List Page}
    (shown : ((Call.queryPage (some (f.startingAt skip)) (.dict [])).run env store).outcome =
      .ok (.page page))
    (more : page.standing.get? "has_next" = some (.bool true))
    (walk : PositionWalk env store f step (skip + step) rest) :
    PositionWalk env store f step skip (page :: rest)

/-- What a walk shows is settled by where it begins. -/
theorem PositionWalk.unique {env : Environment} {store : Store} {f : Filter} {step skip : Nat}
    {pages others : List Page} (walk : PositionWalk env store f step skip pages)
    (other : PositionWalk env store f step skip others) : others = pages := by
  induction walk generalizing others with
  | last shown ends =>
    cases other with
    | last same _ =>
      cases shown.symm.trans same
      rfl
    | next same more _ =>
      cases shown.symm.trans same
      cases ends.symm.trans more
  | next shown more _ ih =>
    cases other with
    | last same ends =>
      cases shown.symm.trans same
      cases ends.symm.trans more
    | next same _ rest =>
      cases shown.symm.trans same
      rw [ih rest]

/-- **A walk comes to its end** behind as many pages as the list takes, and shows the whole
rest of it. -/
theorem Filter.Paged.walk {f : Filter} {env : Environment} {table : Table} {step : Nat}
    {earnings : List Earning} (paged : f.Paged env table step earnings)
    (room : (earnings.length : Int) ≤ storedHigh) {skip : Nat} (aligned : step ∣ skip)
    (inside : skip = 0 ∨ skip < earnings.length) :
    ∃ pages, PositionWalk env (some table) f step skip pages ∧
      skip / step + pages.length = max 1 (pagesFor earnings.length step) ∧
      List.Forall₂ Receipt.Shows (pages.flatMap Page.items) (earnings.drop skip) := by
  induction left : earnings.length - skip using Nat.strongRecOn generalizing skip with
  | ind left ih =>
    have long := paged.long
    have held : (skip : Int) ≤ storedHigh := by
      have low : (0 : Int) ≤ storedHigh := by decide
      omega
    obtain ⟨page, shown, shows, stands⟩ := paged.page held
    have told : page.standing.get? "has_next" = some (.bool (PageInfo.of skip step earnings.length
        (min step (earnings.length - skip) : Nat)).hasNext) := by
      rw [stands]
      rfl
    by_cases more : skip + step < earnings.length
    · rw [PageInfo.hasNext_of_iff.mpr more] at told
      obtain ⟨pages, walk, count, rest⟩ := ih (earnings.length - (skip + step)) (by omega)
        (Nat.dvd_add_self_right.mpr aligned) (.inr more) rfl
      rw [Nat.add_div_right skip long] at count
      refine ⟨page :: pages, .next shown told walk, by rw [List.length_cons]; omega, ?_⟩
      rw [List.flatMap_cons, ← List.take_append_drop step (earnings.drop skip), List.drop_drop]
      exact List.rel_append shows rest
    · have ends := Bool.eq_false_iff.mpr (mt PageInfo.hasNext_of_iff.mp more)
      rw [ends] at told
      refine ⟨[page], .last shown told, PageInfo.last_page long aligned inside more, ?_⟩
      rw [List.take_of_length_le (by rw [List.length_drop]; omega)] at shows
      rw [List.flatMap_singleton]
      exact shows

/-- **A page agrees with the rows**, and what it tells about the list with both.  Behind every
run from a ledger without rows, and for every filter whose numbers fit the driver, the page
shows, field for field, the earnings that a query for it gives: those at its positions in
the list of the rows that the filter asks for.  It tells the length of that list, and that
there is another page exactly when a query a step further would give something.  A page with
items is one of the pages that it counts, and one that begins at a multiple of its length
has another behind it exactly when it is not the last.  There is one walk from the
beginning; it takes as many pages as were told, but at least one, and shows the whole list
in its order. -/
theorem page_agrees_with_rows (trigger : Bool) (turns : List Turn) {f : Filter}
    (valid : ∃ fields, Filter.check fields = .ok f) {env : Environment}
    (calm : strike env.injection .execute = .ok ()) (long : 1 ≤ env.limits.maximum) {step : Nat}
    (length : (step : Int) = min f.limit env.limits.maximum)
    (ends : (f.skip : Int) + step ≤ storedHigh)
    (seen : ∀ id, f.after = some id → (id : Int) ≤ storedHigh) :
    ∃ table matching earnings page info,
      storeAfter (freshStore trigger) turns = some table ∧ table.Lists f.Matches matching ∧
      matching.mapM Earning.ofRow = .ok earnings ∧
      -- the items
      ((Call.query (some f) (.dict [])).run env (some table)).outcome =
        .ok (.earnings ((earnings.drop f.skip).take step)) ∧
      ((Call.queryPage (some f) (.dict [])).run env (some table)).outcome = .ok (.page page) ∧
      List.Forall₂ Receipt.Shows page.items ((earnings.drop f.skip).take step) ∧
      -- where they stand
      page.standing = PageInfo.fields info ∧ info.total = matching.length ∧
      info.returned = page.items.length ∧
      ((Call.query (some (f.startingAt (f.skip + step))) (.dict [])).run env
        (some table)).outcome = .ok (.earnings ((earnings.drop (f.skip + step)).take step)) ∧
      (info.hasNext = true ↔ (earnings.drop (f.skip + step)).take step ≠ []) ∧
      (info.hasPrevious = true ↔ 0 < f.skip) ∧
      (page.items ≠ [] → 1 ≤ info.currentPage ∧ info.currentPage ≤ info.totalPages) ∧
      (step ∣ f.skip → (info.hasNext = true ↔ info.currentPage < info.totalPages)) ∧
      -- the walk from the beginning
      ∃ pages, PositionWalk env (some table) f step 0 pages ∧
        (∀ others, PositionWalk env (some table) f step 0 others → others = pages) ∧
        (pages.length : Int) = max 1 info.totalPages ∧
        List.Forall₂ Receipt.Shows (pages.flatMap Page.items) earnings := by
  obtain ⟨table, left, roomy⟩ := roomy_after trigger turns
  obtain ⟨fields, passed⟩ := valid
  have measured : f.Measured := Filter.measured_of_check passed
  have positive : 0 < step := by
    have low := measured.1
    omega
  obtain ⟨earnings, read, -⟩ := roomy.sound.mapM_ofRow (table.select (Reading.selectionOf f true))
    fun row member => (List.mem_filter.mp member).1
  have near : ¬ f.SeenBeyond := by
    rintro ⟨id, behind, large⟩
    have low := seen id behind
    omega
  have paged : f.Paged env table step earnings :=
    ⟨roomy.sound, calm, measured, length, positive, near, read⟩
  have lists := f.lists_select table
  have count := (mapM_eq_ok_iff.mp read).length_eq
  have room := count ▸ roomy.length_le lists
  have inside : (f.skip : Int) ≤ storedHigh := by omega
  obtain ⟨page, shown, shows, stands⟩ := paged.page inside
  obtain ⟨pages, walk, many, whole⟩ := paged.walk room (Nat.dvd_zero step) (.inl rfl)
  have items : page.items.length = min step (earnings.length - f.skip) := by
    rw [shows.length_eq, List.length_take, List.length_drop]
  have behind : ((f.skip + step : Nat) : Int) ≤ storedHigh := by omega
  refine ⟨table, _, earnings, page, _, left, lists, read, paged.query inside, shown, shows, stands,
    congrArg Nat.cast count.symm, congrArg Nat.cast items.symm, paged.query behind, ?_, ?_, ?_, ?_,
    pages, walk, fun others other => walk.unique other, ?_, whole⟩
  · rw [PageInfo.hasNext_of_iff, ← List.length_pos_iff, List.length_take, List.length_drop]
    omega
  · simp [PageInfo.of]
  · intro some
    have begins : f.skip < earnings.length := by
      have held := List.length_pos_iff.mpr some
      omega
    have among := PageInfo.page_le_pagesFor positive begins
    rw [PageInfo.currentPage_of positive, PageInfo.totalPages_of positive]
    exact ⟨Int.ofNat_le.mpr (Nat.le_add_left 1 _), Int.ofNat_le.mpr among⟩
  · intro aligned
    rw [PageInfo.hasNext_of_iff, PageInfo.goes_on_iff positive aligned,
      PageInfo.currentPage_of positive, PageInfo.totalPages_of positive, Int.ofNat_lt]
  · rw [Nat.zero_div, Nat.zero_add] at many
    rw [PageInfo.totalPages_of positive, many, Nat.cast_max]
    rfl

/-- Four earnings, one of them of another miner, and a maximum of two to a page: the page
behind the first holds what is left, and is the last. -/
theorem last_page_holds_what_is_left :
    let entry (miner : Int) : Value := .dict [(.text "miner_id", .int miner),
      (.text "pool_id", .int 1), (.text "challenge_id", .int 1)]
    let turns : List Turn := [⟨.usual ⟨10, by decide⟩,
      .createBatch (.list [entry 8, entry 2, entry 8, entry 8])⟩]
    let env : Environment := ⟨⟨11, by decide⟩, ⟨100, 2⟩, ⟨11, by decide⟩, none⟩
    let f : Filter := ⟨2, 50, some ⟨8, by decide⟩, none, none, none⟩
    ∃ table page info pages, storeAfter (freshStore false) turns = some table ∧
      ((Call.queryPage (some f) (.dict [])).run env (some table)).outcome = .ok (.page page) ∧
      page.items.length = 1 ∧ page.standing = PageInfo.fields info ∧ info.total = 3 ∧
      info.hasNext = false ∧ info.currentPage = info.totalPages ∧
      PositionWalk env (some table) f 2 0 pages ∧ (pages.flatMap Page.items).length = 3 := by
  intro entry turns env f
  have valid : ∃ fields, Filter.check fields = .ok f :=
    ⟨[("skip", .int 2), ("limit", .int 50), ("miner_id", .int 8)], rfl⟩
  have calm : strike env.injection .execute = .ok () := rfl
  have length : ((2 : Nat) : Int) = min f.limit env.limits.maximum := rfl
  obtain ⟨table, matching, earnings, page, info, left, lists, read, -, shown, shows, stands, total,
    -, -, next, -, among, aligned, pages, walk, -, -, whole⟩ :=
      page_agrees_with_rows false turns valid calm (by decide) length (by decide) (by simp [f])
  have three : matching.length = 3 := by
    obtain rfl := Option.some.inj left
    obtain rfl := lists.unique (f.lists_select _)
    rfl
  have count : earnings.length = 3 := (mapM_eq_ok_iff.mp read).length_eq.symm.trans three
  have items : page.items.length = 1 := by
    rw [shows.length_eq, List.length_take, List.length_drop, count]
    rfl
  have last : ¬ info.hasNext = true := by
    rw [next, ← List.length_pos_iff, List.length_take, List.length_drop, count]
    decide
  have some : page.items ≠ [] := List.ne_nil_of_length_pos (by omega)
  have current := among some
  have ends := mt (aligned ⟨1, rfl⟩).mpr last
  refine ⟨table, page, info, pages, left, shown, items, stands, by rw [total, three]; rfl,
    Bool.eq_false_iff.mpr last, by omega, walk, ?_⟩
  rw [whole.length_eq, count]

end EarningsLedger
