import EarningsLedger.Proofs.ComputedAmounts
import EarningsLedger.Proofs.OwnerPages

/-!
# How long a page can be

The length of a page is asked for in the request, is checked there, and is afterwards lowered
to the maximum in force, which nobody checks.  The store takes a negative length for no bound
at all, and a page that tells of another one counts the rows apart from its items.

`maximum_bounds_every_page` says what holds of the pages nevertheless: whatever was asked for,
a page is no longer than that and no longer than the maximum, unless the maximum is negative;
and a page that tells of another one shows a row, unless the maximum is zero.
-/

namespace EarningsLedger

open Calendar Check Storage

/-- An environment with other page lengths. -/
def Environment.withLimits (env : Environment) (limits : Limits) : Environment :=
  { env with limits := limits }

/-! ## The length that was asked for -/

/-- What a request on a filter asks for: the parts of a ready-made filter with the names put
over them, or the names that have a value, with the usual page length unless they hold
one. -/
def requestedParts (limits : Limits) (ready : Option Filter) (names : Fields) : Fields :=
  match ready with
  | some f => f.fields.putAll names
  | none => namedFilter limits names

/-- The page length that a request on a filter asks for, read as loosely as the check of the
filter reads it. -/
def Call.lengthAsked? (limits : Limits) (operation : String) (ready : Option Filter)
    (named : Value) : Option Int := do
  let bound ← (filterNames operation [] named).outcome.toOption
  let input ← (requestedParts limits ready bound.extras).get? "limit"
  (looseInt input).toOption

theorem exists_length_requested (limits : Limits) (ready : Option Filter) (names : Fields) :
    ∃ input, (requestedParts limits ready names).get? "limit" = some input := by
  rw [← Option.isSome_iff_exists, Fields.isSome_get?]
  cases ready with
  | some f =>
    show Fields.has (f.fields.putAll names) "limit" = true
    rw [Fields.has_putAll]
    rfl
  | none =>
    show Fields.has (namedFilter limits names) "limit" = true
    unfold namedFilter
    dsimp only
    split
    · assumption
    · rw [Fields.has_append]
      exact Bool.or_true _

/-- The page length of a filter that is built is the one that was asked for, but for the
maximum. -/
theorem limit_of_buildFilter {limits : Limits} {ready : Option Filter} {names : Fields}
    (measured : ∀ f, ready = some f → f.Measured) {f : Filter}
    (built : (buildFilter limits ready names).outcome = .ok f) :
    ∃ input asked, (requestedParts limits ready names).get? "limit" = some input ∧
      looseInt input = .ok asked ∧ (1 ≤ asked ∧ asked ≤ PageBounds.longestLimit) ∧
      f.limit = min asked limits.maximum := by
  obtain ⟨input, given⟩ := exists_length_requested limits ready names
  have capped : ∀ {stated : Audited Filter},
      (stated >>= fun g => pure (g.capped limits.maximum)).outcome = .ok f →
      ∃ g, stated.outcome = .ok g ∧ f.limit = min g.limit limits.maximum := by
    intro stated done
    obtain ⟨g, approved, same⟩ := Audited.outcome_bind_eq_ok_iff.mp done
    obtain rfl := Except.ok.inj same
    exact ⟨g, approved, by rw [Filter.capped_eq]⟩
  have checked : ∀ {g : Filter},
      Filter.check (requestedParts limits ready names) = .ok g →
      looseInt input = .ok g.limit ∧ g.Measured :=
    fun passed => ⟨Filter.limit_of_check passed given, Filter.measured_of_check passed⟩
  cases ready with
  | none =>
    obtain ⟨g, approved, same⟩ := capped built
    obtain ⟨loose, long⟩ := checked (outcome_approve_eq_ok_iff.mp approved).2
    exact ⟨input, g.limit, given, loose, long, same⟩
  | some ready =>
    cases names with
    | nil =>
      obtain ⟨g, approved, same⟩ := capped built
      obtain rfl := Except.ok.inj approved
      exact ⟨.int ready.limit, ready.limit, rfl, rfl, measured ready rfl, same⟩
    | cons first rest =>
      obtain ⟨g, approved, same⟩ := capped built
      obtain ⟨loose, long⟩ := checked (outcome_approve_eq_ok_iff.mp approved).2
      exact ⟨input, g.limit, given, loose, long, same⟩

theorem Call.limit_of_filterFor {env : Environment} {operation : String} {ready : Option Filter}
    {named : Value} (measured : ∀ f, ready = some f → f.Measured) {f : Filter}
    (built : (filterFor env operation ready named).outcome = .ok f) :
    ∃ asked, lengthAsked? env.limits operation ready named = some asked ∧ 1 ≤ asked ∧
      f.limit = min asked env.limits.maximum := by
  obtain ⟨bound, read, built⟩ := Audited.outcome_bind_eq_ok_iff.mp built
  obtain ⟨input, asked, given, loose, ⟨low, -⟩, same⟩ := limit_of_buildFilter measured built
  refine ⟨asked, ?_, low, same⟩
  unfold lengthAsked?
  rw [read]
  show ((requestedParts env.limits ready bound.extras).get? "limit").bind _ = _
  rw [given]
  show (looseInt input).toOption = _
  rw [loose]
  rfl

/-! ## The rows of a page -/

namespace Storage

variable {α : Type} {skip : Nat} {limit : Int} {items : List α}

/-- A page of a length that is not negative is no longer than that. -/
theorem length_pageOf_le (low : 0 ≤ limit) : ((pageOf skip limit items).length : Int) ≤ limit := by
  have whole : ¬ limit < 0 := Int.not_lt.mpr low
  rw [pageOf, if_neg whole, List.length_take]
  omega

/-- A page that begins inside its list is not empty, unless it has no length. -/
theorem length_pageOf_pos (long : limit ≠ 0) (inside : skip < items.length) :
    0 < (pageOf skip limit items).length := by
  unfold pageOf
  split
  · rw [List.length_drop]
    omega
  · rw [List.length_take, List.length_drop]
    omega

end Storage

/-- A page that is shown has the rows of its part of the list, and tells of the whole list
that they are a part of. -/
theorem Reading.page_of_pageOfFilter {env : Environment} {table : Table} {f : Filter} {page : Page}
    (shown : (pageOfFilter env (some table) f).outcome = .ok page) :
    page.items.length =
        (pageOf f.skip f.limit (table.select (selectionOf f true))).length ∧
      page.standing = (PageInfo.of f.skip f.limit (table.select (selectionOf f true)).length
        page.items.length).fields := by
  obtain ⟨listed, found, counted⟩ := Audited.outcome_bind_eq_ok_iff.mp shown
  obtain ⟨total, counts, made⟩ := Audited.outcome_bind_eq_ok_iff.mp counted
  obtain ⟨receipts, told, whole⟩ := Audited.outcome_bind_eq_ok_iff.mp made
  obtain rfl := Except.ok.inj whole
  have read := mapM_eq_ok_iff.mp (pageRows_of_ok (pageRows_of_queryFilter found))
  have items := mapM_eq_ok_iff.mp (mapError_eq_ok_iff.mp told)
  have length := items.length_eq.symm.trans read.length_eq.symm
  have counts : ((rows env (some table) (selectionOf f true)).map
      fun found => (found.length : Int)) = .ok total := by
    rw [countFilter, outcome_readOutcome] at counts
    exact mapError_eq_ok_iff.mp counts
  obtain ⟨picked, given, rfl⟩ := map_eq_ok_iff.mp counts
  obtain rfl := rows_of_ok given
  refine ⟨length, ?_⟩
  rw [← items.length_eq]

/-- **The maximum bounds every page.**  On any table, whatever a request asks for by names,
with a ready-made filter or with both: an answered query lists no more earnings than the page
length that it asks for and than the maximum in force, as long as that is not negative, and so
does a page, which tells how many they are.  A page that tells of another one is not empty, as
long as the maximum is not zero, so whoever goes on behind what was returned gets on. -/
theorem maximum_bounds_every_page (table : Table) (env : Environment) {ready : Option Filter}
    (measured : ∀ f, ready = some f → f.Measured) (named : Value) :
    (∀ listed, ((Call.query ready named).run env (some table)).outcome = .ok (.earnings listed) →
      ∃ asked, Call.lengthAsked? env.limits "query" ready named = some asked ∧
        (0 ≤ env.limits.maximum → (listed.length : Int) ≤ min asked env.limits.maximum)) ∧
    ∀ page, ((Call.queryPage ready named).run env (some table)).outcome = .ok (.page page) →
      ∃ asked, Call.lengthAsked? env.limits "query_page" ready named = some asked ∧
        (0 ≤ env.limits.maximum → (page.items.length : Int) ≤ min asked env.limits.maximum) ∧
        page.standing.get? "returned" = some (.int page.items.length) ∧
        (env.limits.maximum ≠ 0 → page.standing.get? "has_next" = some (.bool true) →
          0 < page.items.length) := by
  constructor
  · intro listed done
    obtain ⟨f, _, built, read, same⟩ := Call.page_of_query done
    obtain rfl := Answer.earnings.inj same
    obtain ⟨asked, asks, low, limit⟩ := Call.limit_of_filterFor measured built
    refine ⟨asked, asks, fun long => ?_⟩
    have rows := (mapM_eq_ok_iff.mp (Reading.pageRows_of_ok read)).length_eq
    rw [← rows, ← limit]
    exact length_pageOf_le (by omega)
  · intro page done
    obtain ⟨f, built, replied⟩ := Audited.outcome_bind_eq_ok_iff.mp done
    rw [Audited.outcome_map] at replied
    obtain ⟨found, shown, same⟩ := map_eq_ok_iff.mp replied
    obtain rfl : page = found := (Answer.page.inj same).symm
    obtain ⟨asked, asks, low, limit⟩ := Call.limit_of_filterFor measured built
    obtain ⟨length, standing⟩ := Reading.page_of_pageOfFilter shown
    refine ⟨asked, asks, fun long => ?_, ?_, fun some more => ?_⟩
    · rw [length, ← limit]
      exact length_pageOf_le (by omega)
    · rw [standing]
      rfl
    · rw [standing] at more
      have next : decide ((f.skip : Int) + page.items.length <
          (table.select (Reading.selectionOf f true)).length) = true :=
        Value.bool.inj (Option.some.inj more)
      have goes := of_decide_eq_true next
      rw [length]
      exact length_pageOf_pos (by omega) (by omega)

/-- **Under a negative maximum there is no bound**: an answered query lists every row behind
the position that it asks for. -/
theorem Call.length_of_query_below_zero {table : Table} {env : Environment}
    {ready : Option Filter} (measured : ∀ f, ready = some f → f.Measured) {named : Value}
    (below : env.limits.maximum < 0) {listed : List Earning}
    (done : ((Call.query ready named).run env (some table)).outcome = .ok (.earnings listed)) :
    ∃ f, (filterFor env "query" ready named).outcome = .ok f ∧
      listed.length = (table.select (Reading.selectionOf f true)).length - f.skip := by
  obtain ⟨f, _, built, read, same⟩ := page_of_query done
  obtain rfl := Answer.earnings.inj same
  obtain ⟨asked, -, low, limit⟩ := limit_of_filterFor measured built
  have negative : f.limit < 0 := by omega
  refine ⟨f, built, ?_⟩
  rw [← (mapM_eq_ok_iff.mp (Reading.pageRows_of_ok read)).length_eq, pageOf, if_pos negative,
    List.length_drop]

/-! ## Pages of four earnings -/

/-- The run that opens four earnings of five in one batch. -/
def fourOpened (now : Instant) : List Turn :=
  let item : Value := .ofFields fiveAsked
  [⟨.usual now, .createBatch (.list [item, item, item, item])⟩]

section Four

variable {now : Instant} {env : Environment} {ready : Option Filter} {named : Value}

/-- A filter without an owner picks all four rows. -/
theorem length_select_fourOpened {before : Table}
    (left : storeAfter (freshStore true) (fourOpened now) = some before) (limit : Int) :
    (before.select (Reading.selectionOf ⟨0, limit, none, none, none, none⟩ true)).length = 4 := by
  obtain rfl := Option.some.inj left
  rfl

/-- A query whose filter fits the driver is answered behind that run, when no fault strikes. -/
theorem query_of_fourOpened (now : Instant) (calm : strike env.injection .execute = .ok ())
    {f : Filter} (fits : Reading.pageFits f = true)
    (built : (Call.filterFor env "query" ready named).outcome = .ok f) :
    ∃ before listed, storeAfter (freshStore true) (fourOpened now) = some before ∧
      ((Call.query ready named).run env (some before)).outcome = .ok (.earnings listed) := by
  obtain ⟨before, left, sound⟩ := sound_after true (fourOpened now)
  obtain ⟨listed, -, read⟩ := Reading.pageRows_of_calm sound calm f
  rw [if_pos fits] at read
  have found : (Reading.queryFilter env (some before) f).outcome = .ok listed := by
    refine Audited.outcome_bind_eq_ok_iff.mpr ⟨listed, ?_, rfl⟩
    rw [outcome_readOutcome, read]
    rfl
  refine ⟨before, listed, left, (Audited.outcome_bind_of_ok built).trans ?_⟩
  rw [Audited.outcome_map, found]
  rfl

/-- So is a page from the first row on, and it tells of another one while it shows fewer than
four. -/
theorem page_of_fourOpened (now : Instant) (calm : strike env.injection .execute = .ok ())
    {limit : Int} (fits : Reading.pageFits ⟨0, limit, none, none, none, none⟩ = true)
    (built : (Call.filterFor env "query_page" ready named).outcome =
      .ok ⟨0, limit, none, none, none, none⟩) :
    ∃ before page, storeAfter (freshStore true) (fourOpened now) = some before ∧
      ((Call.queryPage ready named).run env (some before)).outcome = .ok (.page page) ∧
      (0 ≤ limit → (page.items.length : Int) ≤ limit) ∧
      page.standing.get? "has_next" = some (.bool (decide ((page.items.length : Int) < 4))) := by
  obtain ⟨before, left, sound⟩ := sound_after true (fourOpened now)
  obtain ⟨page, shown⟩ := Reading.outcome_pageOfFilter_of_calm sound calm
    ⟨0, limit, none, none, none, none⟩
  rw [if_pos fits] at shown
  obtain ⟨length, standing⟩ := Reading.page_of_pageOfFilter shown
  rw [length_select_fourOpened left] at standing
  refine ⟨before, page, left, (Audited.outcome_bind_of_ok built).trans ?_, fun low => ?_, ?_⟩
  · rw [Audited.outcome_map, shown]
    rfl
  · rw [length]
    exact length_pageOf_le low
  · have start : ((0 : Nat) : Int) + page.items.length = page.items.length := by omega
    rw [standing]
    show some (Value.bool (decide (((0 : Nat) : Int) + page.items.length < 4))) = _
    rw [start]

end Four

/-- A ready-made filter for pages of three, its length named again as five, under a maximum
of two: no more than two of the four earnings are shown, and there are others. -/
theorem page_under_maximum_of_two :
    let now : Instant := ⟨10, by decide⟩
    let env := (Environment.usual now).withLimits ⟨100, 2⟩
    let ready : Filter := ⟨0, 3, none, none, none, none⟩
    let named : Value := .dict [(.text "limit", .int 5)]
    (∀ f, some ready = some f → f.Measured) ∧
      ∃ before page, storeAfter (freshStore true) (fourOpened now) = some before ∧
        ((Call.queryPage (some ready) named).run env (some before)).outcome = .ok (.page page) ∧
        (page.items.length : Int) ≤ min 5 2 ∧ 0 < page.items.length ∧
        page.standing.get? "has_next" = some (.bool true) := by
  intro now env ready named
  have measured : ∀ f, some ready = some f → f.Measured := by
    rintro _ ⟨⟩
    exact ⟨by decide, by decide⟩
  have built : (Call.filterFor env "query_page" (some ready) named).outcome =
      .ok ⟨0, 2, none, none, none, none⟩ := rfl
  obtain ⟨before, page, left, shown, -, next⟩ := page_of_fourOpened now rfl (by decide) built
  obtain ⟨asked, asks, bounds, -, goes⟩ :=
    (maximum_bounds_every_page before env measured named).2 page shown
  obtain rfl : asked = 5 := Option.some.inj (asks.symm.trans rfl)
  have short : (page.items.length : Int) ≤ min 5 2 := bounds (by decide)
  have more : page.standing.get? "has_next" = some (.bool true) := by
    rw [next, decide_eq_true (by omega)]
  exact ⟨measured, before, page, left, shown, short, goes (by decide) more, more⟩

/-- Under a maximum of minus one a query lists all four earnings, and under a maximum of zero
a page without any tells that there is another one. -/
theorem maximum_below_one_bounds_no_page :
    let now : Instant := ⟨10, by decide⟩
    let env (maximum : Int) := (Environment.usual now).withLimits ⟨100, maximum⟩
    let named : Value := .dict []
    (∃ before listed, storeAfter (freshStore true) (fourOpened now) = some before ∧
      ((Call.query none named).run (env (-1)) (some before)).outcome = .ok (.earnings listed) ∧
      listed.length = 4) ∧
    ∃ before page, storeAfter (freshStore true) (fourOpened now) = some before ∧
      ((Call.queryPage none named).run (env 0) (some before)).outcome = .ok (.page page) ∧
      page.items = [] ∧ page.standing.get? "has_next" = some (.bool true) := by
  intro now env named
  constructor
  · have built : (Call.filterFor (env (-1)) "query" none named).outcome =
        .ok ⟨0, -1, none, none, none, none⟩ := rfl
    obtain ⟨before, listed, left, done⟩ := query_of_fourOpened now rfl (by decide) built
    obtain ⟨f, same, length⟩ :=
      Call.length_of_query_below_zero (by rintro f ⟨⟩) (by decide) done
    obtain rfl := Except.ok.inj (built.symm.trans same)
    refine ⟨before, listed, left, done, ?_⟩
    rw [length, length_select_fourOpened left]
    rfl
  · have built : (Call.filterFor (env 0) "query_page" none named).outcome =
        .ok ⟨0, 0, none, none, none, none⟩ := rfl
    obtain ⟨before, page, left, shown, short, next⟩ :=
      page_of_fourOpened now rfl (by decide) built
    have low := short (Int.le_refl 0)
    have empty : page.items = [] := List.length_eq_zero_iff.mp (by omega)
    refine ⟨before, page, left, shown, empty, ?_⟩
    rw [next, empty]
    rfl

end EarningsLedger
