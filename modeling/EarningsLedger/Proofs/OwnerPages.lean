import EarningsLedger.Proofs.ClosedOperations

/-!
# Pages of an owner's earnings

A caller who looks for the earnings of an owner asks for a page of a length, and for the
next one behind the last identifier seen; the request may name what it asks for, or hand
over a ready-made filter.  `Wanted.outcome_run_request` gives the filter that either makes,
and `Wanted.outcome_request` the page that a sound table shows for it: the first rows of
the owner behind the identifier, no more than the length and the maximum in force allow.
-/

namespace EarningsLedger

open Check Storage

/-! ## Names that have a value -/

namespace Fields

theorem get?_cons (field : String × Value) (rest : Fields) (name : String) :
    get? (field :: rest) name = if field.1 = name then some field.2 else rest.get? name := by
  by_cases same : field.1 = name <;> simp [get?, same]

theorem get?_append (fields more : Fields) (name : String) :
    get? (fields ++ more) name = (fields.get? name).or (more.get? name) := by
  simp [get?, List.find?_append, Option.map_or]

theorem present_cons (field : String × Value) (rest : Fields) :
    present (field :: rest) = if field.2.isNull then rest.present else field :: rest.present := by
  cases null : field.2.isNull <;> simp [present, null]

/-- A name that comes once at most has the value it had, unless that is the missing one. -/
theorem get?_present {fields : Fields} (apart : (fields.map Prod.fst).Nodup) (name : String) :
    fields.present.get? name = (fields.get? name).filter fun value => !value.isNull := by
  induction fields with
  | nil => rfl
  | cons field rest ih =>
    obtain ⟨new, apart⟩ := List.nodup_cons.mp apart
    have ih := ih apart
    rw [present_cons, get?_cons]
    by_cases here : field.1 = name
    · have absent : get? rest name = none := by
        rw [← here]
        refine Option.map_eq_none_iff.mpr (List.find?_eq_none.mpr fun other member same => new ?_)
        exact List.mem_map.mpr ⟨other, member, beq_iff_eq.mp same⟩
      rw [absent] at ih
      cases null : field.2.isNull with
      | true => simpa [here, null, Option.filter] using ih
      | false => simp [get?_cons, here, null, Option.filter]
    · cases null : field.2.isNull with
      | true => simpa [here] using ih
      | false => simpa [get?_cons, here] using ih

end Fields

/-- A filter with its page no longer than a maximum differs in the length of its page. -/
theorem Filter.capped_eq (f : Filter) (maximum : Int) :
    f.capped maximum = { f with limit := min f.limit maximum } := by
  unfold capped
  split
  · next lower => rw [Int.min_eq_right (Int.le_of_lt lower)]
  · next higher => rw [Int.min_eq_left (Int.not_lt.mp higher)]

/-! ## Requests -/

/-- The owner's numbers that a caller asks for. -/
structure Wanted where
  miner : Option Key
  pool : Option Key
  challenge : Option Key

namespace Wanted

/-- A row of the owner. -/
def Owns (wanted : Wanted) (row : Row) : Prop :=
  (∀ key, wanted.miner = some key → row.cells.miner = key.val) ∧
    (∀ key, wanted.pool = some key → row.cells.pool = key.val) ∧
    ∀ key, wanted.challenge = some key → row.cells.challenge = key.val

/-- The filter of a page behind the last identifier seen. -/
def filter (wanted : Wanted) (limit : Int) (seen : Option Int) : Filter :=
  ⟨0, limit, wanted.miner, wanted.pool, wanted.challenge, seen.map Int.toNat⟩

/-- The names of a request for a page behind the last identifier seen. -/
def names (wanted : Wanted) (limit : Int) (seen : Option Int) : Fields :=
  [("limit", .int limit), ("miner_id", .ofInt? (wanted.miner.map Key.val)),
   ("pool_id", .ofInt? (wanted.pool.map Key.val)),
   ("challenge_id", .ofInt? (wanted.challenge.map Key.val)), ("after_id", .ofInt? seen)]

/-- A request for a page behind the last identifier seen, with a ready-made filter or by
names. -/
def request (wanted : Wanted) (ready : Bool) (limit : Int) (seen : Option Int) : Call :=
  if ready then .query (some (wanted.filter limit seen)) (.dict [])
  else .query none
    (.dict ((wanted.names limit seen).map fun field => (.text field.1, field.2)))

/-- Names that hold the numbers of an owner, the length of a page and the last identifier
seen make the filter of that page. -/
theorem check_of_get? (wanted : Wanted) {data : Fields} {limit : Int} (low : 1 ≤ limit)
    (high : limit ≤ PageBounds.longestLimit) {seen : Option Int}
    (positive : ∀ id, seen = some id → 0 ≤ id) (skip : data.get? "skip" = none)
    (long : data.get? "limit" = some (.int limit))
    (miner : data.get? "miner_id" = (wanted.miner.map Key.val).map .int)
    (pool : data.get? "pool_id" = (wanted.pool.map Key.val).map .int)
    (challenge : data.get? "challenge_id" = (wanted.challenge.map Key.val).map .int)
    (after : data.get? "after_id" = seen.map .int) :
    Filter.check data = .ok (wanted.filter limit seen) := by
  have owner : ∀ {name : String} {asked : Option Key},
      data.get? name = (asked.map Key.val).map .int →
      Filter.ownerNumber data name = .ok asked := by
    intro name asked named
    refine field_eq_ok_iff.mpr ?_
    rw [named]
    cases asked with
    | none => exact .inl ⟨rfl, rfl⟩
    | some k => exact .inr ⟨.int k.val, rfl, map_eq_ok_iff.mpr ⟨k, key_eq_ok_iff.mpr rfl, rfl⟩⟩
  have behind : field data "after_id" (some none) (optional count) =
      .ok (seen.map Int.toNat) := by
    refine field_eq_ok_iff.mpr ?_
    rw [after]
    cases seen with
    | none => exact .inl ⟨rfl, rfl⟩
    | some id =>
      have counted : count (.int id) = .ok id.toNat := by
        have zero : ¬ id < 0 := by
          have low := positive id rfl
          omega
        simp [count, looseInt, zero]
      exact .inr ⟨.int id, rfl, map_eq_ok_iff.mpr ⟨id.toNat, counted, rfl⟩⟩
  have bounds : PageBounds.check data = .ok ⟨0, limit⟩ :=
    map_eq_ok_iff.mpr ⟨(0, limit), Verdict.both_eq_ok.mpr
      ⟨field_eq_ok_iff.mpr (.inl ⟨skip, rfl⟩), field_eq_ok_iff.mpr
        (.inr ⟨.int limit, long, bounded_eq_ok_iff.mpr ⟨rfl, low, high⟩⟩)⟩, rfl⟩
  exact map_eq_ok_iff.mpr ⟨(_, _, _, _, _), Verdict.both_eq_ok.mpr
    ⟨bounds, Verdict.both_eq_ok.mpr ⟨owner miner, Verdict.both_eq_ok.mpr
      ⟨owner pool, Verdict.both_eq_ok.mpr ⟨owner challenge, behind⟩⟩⟩⟩, rfl⟩

/-- A number that is asked for is one of the names that have a value. -/
theorem present_ofInt? (asked : Option Int) :
    ((some (Value.ofInt? asked)).filter fun value => !value.isNull) = asked.map .int := by
  cases asked <;> rfl

/-- The check of the names of a page makes its filter. -/
theorem check_names (wanted : Wanted) {limit : Int} (low : 1 ≤ limit)
    (high : limit ≤ PageBounds.longestLimit) {seen : Option Int}
    (positive : ∀ id, seen = some id → 0 ≤ id) :
    Filter.check (wanted.names limit seen).present = .ok (wanted.filter limit seen) := by
  have apart : ((wanted.names limit seen).map Prod.fst).Nodup := by
    show ["limit", "miner_id", "pool_id", "challenge_id", "after_id"].Nodup
    decide
  have held : ∀ {name : String} {asked : Option Int},
      (wanted.names limit seen).get? name = some (.ofInt? asked) →
      (wanted.names limit seen).present.get? name = asked.map .int := by
    intro name asked named
    rw [Fields.get?_present apart, named, present_ofInt?]
  have skip : (wanted.names limit seen).present.get? "skip" = none := by
    rw [Fields.get?_present apart]
    rfl
  have long : (wanted.names limit seen).present.get? "limit" = (some limit).map .int := held rfl
  exact wanted.check_of_get? low high positive skip long (held rfl) (held rfl) (held rfl)
    (held rfl)

/-- The names of a request for a page all reach the filter. -/
theorem outcome_filterNames (wanted : Wanted) (limit : Int) (seen : Option Int) :
    (filterNames "query" [] (.dict ((wanted.names limit seen).map fun field =>
      (.text field.1, field.2)))).outcome =
        .ok ⟨[("earning_filter", .null)], wanted.names limit seen⟩ := by
  rfl

/-- The filter of a page is as long as it may be. -/
theorem capped_filter (wanted : Wanted) (limit maximum : Int) (seen : Option Int) :
    (wanted.filter limit seen).capped maximum = wanted.filter (min limit maximum) seen :=
  (wanted.filter limit seen).capped_eq maximum

theorem outcome_buildFilter_names (wanted : Wanted) (limits : Limits) {limit : Int}
    (low : 1 ≤ limit) (high : limit ≤ PageBounds.longestLimit) {seen : Option Int}
    (positive : ∀ id, seen = some id → 0 ≤ id) :
    (buildFilter limits none (wanted.names limit seen)).outcome =
      .ok (wanted.filter (min limit limits.maximum) seen) := by
  have given : namedFilter limits (wanted.names limit seen) =
      (wanted.names limit seen).present := by
    have held : (wanted.names limit seen).present.has "limit" = true := rfl
    rw [namedFilter, if_pos held]
  have free : clashing (wanted.names limit seen).present = false := clashing_present rfl
  rw [← capped_filter]
  refine outcome_buildFilter_of_check free ?_
  rw [given]
  exact wanted.check_names low high positive

/-- **The filter of a request for a page**, however it is handed over. -/
theorem outcome_run_request (wanted : Wanted) (env : Environment) (ready : Bool) {limit : Int}
    (low : 1 ≤ limit) (high : limit ≤ PageBounds.longestLimit) {seen : Option Int}
    (positive : ∀ id, seen = some id → 0 ≤ id) (store : Store) :
    ((wanted.request ready limit seen).run env store).outcome =
      (Reading.queryFilter env store
        (wanted.filter (min limit env.limits.maximum) seen)).outcome.map .earnings := by
  have built : ∀ filtered : Audited Filter,
      filtered.outcome = .ok (wanted.filter (min limit env.limits.maximum) seen) →
      (filtered >>= fun f => Answer.earnings <$> Reading.queryFilter env store f).outcome =
        (Reading.queryFilter env store
          (wanted.filter (min limit env.limits.maximum) seen)).outcome.map .earnings := by
    intro filtered ended
    rw [Audited.outcome_bind_of_ok ended, Audited.outcome_map]
  unfold request
  cases ready with
  | true =>
    refine built (Call.filterFor env "query" _ _) ?_
    have same : (buildFilter env.limits (some (wanted.filter limit seen)) []).outcome =
        .ok (wanted.filter (min limit env.limits.maximum) seen) := by
      rw [← capped_filter]
      rfl
    exact same
  | false =>
    refine built (Call.filterFor env "query" _ _) ?_
    exact (Audited.outcome_bind_of_ok (wanted.outcome_filterNames limit seen)).trans
      (wanted.outcome_buildFilter_names env.limits low high positive)

/-! ## Rows of a page -/

/-- The owner's rows behind the last identifier seen, in the order of their identifiers. -/
def behind (wanted : Wanted) (table : Table) (seen : Option Int) : List Row :=
  table.select (Reading.selectionOf (wanted.filter 0 seen) true)

theorem mem_behind {wanted : Wanted} {table : Table} {seen : Option Int}
    (positive : ∀ id, seen = some id → 0 ≤ id) {row : Row} :
    row ∈ wanted.behind table seen ↔
      row ∈ table.rows ∧ wanted.Owns row ∧ ∀ id, seen = some id → id < row.id := by
  have owner : ∀ (asked : Option Key) (n : Int), Selection.agrees (asked.map Key.val) n = true ↔
      ∀ key, asked = some key → n = key.val := by
    intro asked n
    cases asked <;> simp [Selection.agrees]
  refine List.mem_filter.trans (and_congr_right fun member => ?_)
  simp only [Selection.admits, Reading.selectionOf, filter, Bool.and_eq_true, owner, if_true, Owns,
    and_assoc]
  cases seen with
  | none => simp
  | some id =>
    have low := positive id rfl
    simp only [Option.map_some, decide_eq_true_eq, Option.some.injEq, forall_eq',
      Int.ofNat_eq_natCast, Int.toNat_of_nonneg low]

theorem ascending_behind (wanted : Wanted) (table : Table) (seen : Option Int) :
    Ascending (wanted.behind table seen) :=
  Table.ascending_filter table.ascending _

/-- Rows make earnings with their identifiers. -/
theorem map_id_of_mapM {rows : List Row} {earnings : List Earning}
    (read : rows.mapM Earning.ofRow = .ok earnings) :
    earnings.map Earning.id = rows.map Row.id := by
  have pairs := mapM_eq_ok_iff.mp read
  clear read
  induction pairs with
  | nil => rfl
  | cons here rest ih => rw [List.map_cons, List.map_cons, ih, Earning.id_of_ofRow here]

/-- A page whose numbers fit the driver is read from the rows that it picks. -/
theorem pageRows_of_fits {env : Environment} {table : Table}
    (calm : strike env.injection .execute = .ok ()) {f : Filter}
    (fits : Reading.pageFits f = true) :
    Reading.pageRows env (some table) f =
      (pageOf f.skip f.limit (table.select (Reading.selectionOf f true))).mapM Earning.ofRow := by
  simp only [Reading.pageFits, Bool.and_eq_true] at fits
  obtain ⟨⟨picks, skip⟩, limit⟩ := fits
  unfold Reading.pageRows
  rw [Reading.rows_of_calm calm, if_pos picks, skip, limit]
  rfl

/-- **The page that a sound table shows**: the first of the owner's rows behind the last
identifier seen, no more than the length and the maximum in force allow. -/
theorem outcome_request (wanted : Wanted) {env : Environment} {table : Table}
    (sound : table.Sound) (calm : strike env.injection .execute = .ok ()) (ready : Bool)
    {limit : Int} (low : 1 ≤ limit) (high : limit ≤ PageBounds.longestLimit)
    (long : 1 ≤ env.limits.maximum) {seen : Option Int}
    (positive : ∀ id, seen = some id → 0 ≤ id ∧ id ≤ storedHigh) :
    ∃ page, ((wanted.request ready limit seen).run env (some table)).outcome =
        .ok (.earnings page) ∧
      page.map Earning.id =
        ((wanted.behind table seen).take (min limit env.limits.maximum).toNat).map Row.id := by
  have long : 1 ≤ min limit env.limits.maximum := Int.le_min.mpr ⟨low, long⟩
  have short : min limit env.limits.maximum ≤ PageBounds.longestLimit :=
    Int.le_trans (Int.min_le_left _ _) high
  have measured : (wanted.filter (min limit env.limits.maximum) seen).Measured := ⟨long, short⟩
  have fits : Reading.pageFits (wanted.filter (min limit env.limits.maximum) seen) = true := by
    refine (Reading.pageFits_iff measured).mpr ⟨?_, ?_⟩
    · show ¬ storedHigh < ((0 : Nat) : Int)
      decide
    · rintro ⟨n, same, large⟩
      obtain ⟨id, rfl, rfl⟩ := Option.map_eq_some_iff.mp same
      have bounds := positive id rfl
      omega
  have whole : pageOf 0 (min limit env.limits.maximum) (wanted.behind table seen) =
      (wanted.behind table seen).take (min limit env.limits.maximum).toNat := by
    rw [pageOf, if_neg (by omega), List.drop_zero]
  obtain ⟨page, read, -⟩ := sound.mapM_ofRow
    ((wanted.behind table seen).take (min limit env.limits.maximum).toNat) fun row member =>
      (List.mem_filter.mp (List.mem_of_mem_take member)).1
  refine ⟨page, ?_, map_id_of_mapM read⟩
  have shown := (pageRows_of_fits calm fits).trans ((congrArg _ whole).trans read)
  have found : (Reading.queryFilter env (some table)
      (wanted.filter (min limit env.limits.maximum) seen)).outcome = .ok page := by
    refine Audited.outcome_bind_eq_ok_iff.mpr ⟨page, ?_, rfl⟩
    rw [outcome_readOutcome, shown]
    rfl
  rw [wanted.outcome_run_request env ready low high fun id same => (positive id same).1, found]
  rfl

end Wanted

end EarningsLedger
