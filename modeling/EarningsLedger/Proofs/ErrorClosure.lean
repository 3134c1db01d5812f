import EarningsLedger.Proofs.ClosedOperations

/-!
# Which failures reach a caller

A caller of the ledger should meet no failure but the ledger's own errors.
`call_closed_iff` says exactly which calls keep to that, on every table that a run can
leave: all but those whose names clash with the check of the request, those that hand the
driver a position or a last identifier seen that no cell can hold, and those that are to be
refused with an error that shows an integer too long for a text.
-/

namespace EarningsLedger

open Storage Writing

variable {env : Environment}

/-! ## What a call asks for -/

namespace Call

/-- The request on a filter that a call makes: the ready-made filter, if there is one, and
the fit of its names. -/
def request? : Call → Option (Option Filter × Audited Binding.Bound)
  | query ready named => some (ready, filterNames "query" [] named)
  | queryPage ready named => some (ready, filterNames "query_page" [] named)
  | count ready _ named => some (ready, filterNames "count" [⟨"with_cursor", true⟩] named)
  | totalAmount ready named => some (ready, filterNames "total_amount" [] named)
  | summarize ready named => some (ready, filterNames "summarize" [] named)
  | _ => none

/-- A call that can be made: its names fit its operation, no argument is given twice, and
a ready-made filter is one that passes its check. -/
structure Proper (call : Call) : Prop where
  arguments : ∀ {arguments : Fields}, call = .create arguments →
    ∃ bound, createSignature.bind [] arguments = .ok bound
  names : ∀ {ready : Option Filter} {names : Audited Binding.Bound},
    call.request? = some (ready, names) → ∃ bound, names.outcome = .ok bound
  cursor : ∀ {ready : Option Filter} {flag named : Value} {bound : Binding.Bound},
    call = .count ready (some flag) named →
    (filterNames "count" [⟨"with_cursor", true⟩] named).outcome = .ok bound →
    bound.given.get? "with_cursor" = none
  checked : ∀ {f : Filter} {names : Audited Binding.Bound},
    call.request? = some (some f, names) → ∃ fields, Filter.check fields = .ok f

/-- A request by names alone is proper when the names fit, unless it counts by a flag that
may come twice. -/
theorem Proper.of_names {call : Call} {names : Audited Binding.Bound} {bound : Binding.Bound}
    (asked : call.request? = some (none, names)) (fitted : names.outcome = .ok bound)
    (single : ∀ ready flag named, call ≠ .count ready (some flag) named) : call.Proper where
  arguments := by
    rintro _ rfl
    cases asked
  names same := by
    cases asked.symm.trans same
    exact ⟨bound, fitted⟩
  cursor same := absurd same (single _ _ _)
  checked same := by cases asked.symm.trans same

/-- A call that hands the check of a request a name that the check uses itself. -/
def Clashes (call : Call) : Prop :=
  ∃ ready names bound, call.request? = some (ready, names) ∧ names.outcome = .ok bound ∧
    clashing (handed ready bound.extras) = true

/-- A call that works with a filter. -/
def Builds (env : Environment) (call : Call) (f : Filter) : Prop :=
  ∃ ready names bound, call.request? = some (ready, names) ∧ names.outcome = .ok bound ∧
    (buildFilter env.limits ready bound.extras).outcome = .ok f

/-- A call that shows a page. -/
def Pages : Call → Prop
  | query _ _ => True
  | queryPage _ _ => True
  | _ => False

/-- A call that looks at the last identifier seen: every page does, and a count when it
is asked to. -/
def LooksBehind : Call → Prop
  | query _ _ => True
  | queryPage _ _ => True
  | count _ withCursor named => ∃ bound,
    (filterNames "count" [⟨"with_cursor", true⟩] named).outcome = .ok bound ∧
      (withCursor.getD ((bound.given.get? "with_cursor").getD (.bool false))).isSomething = true
  | _ => False

/-- A call that hands the driver a number that no cell can hold. -/
def Oversized (env : Environment) (call : Call) : Prop :=
  ∃ f, call.Builds env f ∧ ((call.Pages ∧ f.StartsBeyond) ∨ (call.LooksBehind ∧ f.SeenBeyond))

/-- A call that is refused with an error that shows an integer, of an integer that no text can
show. -/
inductive Unwordable : Call → Prop
  | drafted {arguments : Fields} {bound : Binding.Bound} {amount : Int}
    (fits : createSignature.bind [] arguments = .ok bound)
    (told : bound.given.get? "amount" = some (.int amount))
    (long : Text.isShort amount = false) : Unwordable (create arguments)
  | asked {id : Int} (long : Text.isShort id = false) : Unwordable (getOrFail (.int id))
  | amount {id amount : Int} (long : Text.isShort amount = false) :
    Unwordable (updateAmount (.int id) (.int amount))
  | delta {id delta : Int} (long : Text.isShort delta = false) :
    Unwordable (addAmount (.int id) (.int delta))
  | updated {id amount : Int} (long : Text.isShort id = false)
    (admitted : isAmount amount = true) : Unwordable (updateAmount (.int id) (.int amount))
  | adjusted {id delta : Int} (long : Text.isShort id = false)
    (admitted : -amountHigh ≤ delta ∧ delta ≤ amountHigh) :
    Unwordable (addAmount (.int id) (.int delta))

theorem not_unwordable_create_iff {arguments : Fields} {bound : Binding.Bound}
    (fits : createSignature.bind [] arguments = .ok bound) :
    ¬ (create arguments).Unwordable ↔
      ∀ n, bound.given.get? "amount" = some (.int n) → Text.isShort n = true := by
  constructor
  · exact fun words n told => Bool.of_not_eq_false fun long => words (.drafted fits told long)
  · intro short unwordable
    cases unwordable with
    | drafted other told long =>
      cases fits.symm.trans other
      exact Bool.eq_false_iff.mp long (short _ told)

theorem not_unwordable_getOrFail_iff {asked : Value} :
    ¬ (getOrFail asked).Unwordable ↔ ∀ n, asked = .int n → Text.isShort n = true := by
  constructor
  · rintro words n rfl
    exact Bool.of_not_eq_false fun long => words (.asked long)
  · rintro short ⟨⟩
    next id long => exact Bool.eq_false_iff.mp long (short id rfl)

theorem not_unwordable_updateAmount_iff {id amount : Value} :
    ¬ (updateAmount id amount).Unwordable ↔ ∀ n, id = .int n →
      Form.newAmount.TellsShort [("amount", amount)] ∧
        ∀ a, checkAmount [("amount", amount)] = .ok a → Text.isShort n = true := by
  have tells : Form.newAmount.TellsShort [("amount", amount)] ↔
      ∀ m, amount = .int m → Text.isShort m = true := by
    simp [Form.TellsShort, Form.numbers, NumberAsked.isMoney, Fields.get?]
  simp only [tells, checkAmount_eq_ok_iff]
  constructor
  · rintro words n rfl
    refine ⟨?_, fun a told => ?_⟩
    · rintro m rfl
      exact Bool.of_not_eq_false fun long => words (.amount long)
    · subst told
      exact Bool.of_not_eq_false fun long => words (.updated long a.inRange)
  · intro short unwordable
    cases unwordable with
    | amount long => exact Bool.eq_false_iff.mp long ((short _ rfl).1 _ rfl)
    | updated long admitted => exact Bool.eq_false_iff.mp long ((short _ rfl).2 ⟨_, admitted⟩ rfl)

theorem not_unwordable_addAmount_iff {id delta : Value} :
    ¬ (addAmount id delta).Unwordable ↔ ∀ n, id = .int n →
      Form.change.TellsShort [("delta", delta)] ∧
        ∀ d, checkDelta [("delta", delta)] = .ok d → Text.isShort n = true := by
  have tells : Form.change.TellsShort [("delta", delta)] ↔
      ∀ m, delta = .int m → Text.isShort m = true := by
    simp [Form.TellsShort, Form.numbers, NumberAsked.isMoney, Fields.get?]
  simp only [tells, checkDelta_eq_ok_iff]
  constructor
  · rintro words n rfl
    refine ⟨?_, fun d told => ?_⟩
    · rintro m rfl
      exact Bool.of_not_eq_false fun long => words (.delta long)
    · obtain ⟨rfl, admitted⟩ := told
      exact Bool.of_not_eq_false fun long => words (.adjusted long admitted)
  · intro short unwordable
    cases unwordable with
    | delta long => exact Bool.eq_false_iff.mp long ((short _ rfl).1 _ rfl)
    | adjusted long admitted =>
      exact Bool.eq_false_iff.mp long ((short _ rfl).2 _ ⟨rfl, admitted⟩)

/-! ## Every call -/

/-- A request on a filter is closed when its names do not clash with the check, and no
filter that it builds makes the work behind it end otherwise. -/
theorem closed_request_iff {call : Call} {store : Store} {ready : Option Filter}
    {names : Audited Binding.Bound} {bound : Binding.Bound} {next : Filter → Audited Answer}
    (long : 1 ≤ env.limits.maximum) (proper : call.Proper)
    (asked : call.request? = some (ready, names)) (fitted : names.outcome = .ok bound)
    (reply : (call.run env store).outcome =
      (buildFilter env.limits ready bound.extras >>= next).outcome)
    (each : ∀ f, f.Measured → (Closed (next f).outcome ↔
      ¬ ((call.Pages ∧ f.StartsBeyond) ∨ (call.LooksBehind ∧ f.SeenBeyond)))) :
    Closed (call.run env store).outcome ↔
      ¬ call.Clashes ∧ ¬ call.Oversized env ∧ ¬ call.Unwordable := by
  have words : ¬ call.Unwordable := by
    intro whole
    cases whole <;> cases asked
  have clashes : call.Clashes ↔ clashing (handed ready bound.extras) = true := by
    constructor
    · intro whole
      obtain ⟨_, _, _, same, other, taken⟩ := whole
      cases asked.symm.trans same
      cases fitted.symm.trans other
      exact taken
    · exact fun taken => ⟨ready, names, bound, asked, fitted, taken⟩
  have builds : ∀ f, call.Builds env f ↔
      (buildFilter env.limits ready bound.extras).outcome = .ok f := by
    intro f
    constructor
    · intro whole
      obtain ⟨_, _, _, same, other, built⟩ := whole
      cases asked.symm.trans same
      cases fitted.symm.trans other
      exact built
    · exact fun built => ⟨ready, names, bound, asked, fitted, built⟩
  have checked : ∀ f, ready = some f → ∃ fields, Filter.check fields = .ok f := by
    rintro f rfl
    exact proper.checked asked
  rw [reply, closed_bind_iff, clashes, iff_true_intro words, and_true]
  unfold Oversized
  simp only [builds]
  rcases buildFilter_cases long checked bound.extras with
    ⟨taken, misuse, failed⟩ | ⟨free, ⟨error, failed⟩ | ⟨f, measured, built⟩⟩
  · rw [failed, taken]
    simp
  · rw [failed, free]
    simp
  · rw [built, free]
    simp [each f measured]

/-- A call without a filter can neither clash with the check nor be oversized. -/
theorem plain_iff_of_request?_none {call : Call} (none : call.request? = none) :
    ¬ call.Clashes ∧ ¬ call.Oversized env ∧ ¬ call.Unwordable ↔ ¬ call.Unwordable := by
  have free : ¬ call.Clashes := by
    intro whole
    obtain ⟨_, _, _, asked, -⟩ := whole
    rw [none] at asked
    cases asked
  have small : ¬ call.Oversized env := by
    intro whole
    obtain ⟨_, ⟨_, _, _, asked, -⟩, -⟩ := whole
    rw [none] at asked
    cases asked
  exact ⟨fun whole => whole.2.2, fun words => ⟨free, small, words⟩⟩

/-- A proper count looks at the last identifier seen when either of its flags says so. -/
theorem outcome_count {store : Store} {ready : Option Filter} {withCursor : Option Value}
    {named : Value} {bound : Binding.Bound} (proper : (count ready withCursor named).Proper)
    (fitted : (filterNames "count" [⟨"with_cursor", true⟩] named).outcome = .ok bound) :
    ((count ready withCursor named).run env store).outcome =
      (buildFilter env.limits ready bound.extras >>= fun f =>
        Answer.number <$> Reading.countFilter env store f
          (withCursor.getD ((bound.given.get? "with_cursor").getD
            (.bool false))).isSomething).outcome := by
  refine (Audited.outcome_bind_of_ok fitted).trans ?_
  cases withCursor with
  | none => rfl
  | some flag =>
    rw [proper.cursor rfl fitted]
    rfl

end Call

/-- **Which failures reach a caller.**  On every table that a run can leave, and when no
fault is made to strike, a proper call other than a batch ends in a result or an error of
the ledger exactly when none of its names clashes with the check of the request, it hands the
driver no number that no cell can hold, and it is not to be refused with an error that shows
an integer too long for a text. -/
theorem call_closed_iff {env : Environment} (calm : env.injection = none)
    (long : 1 ≤ env.limits.maximum) {call : Call} (proper : call.Proper)
    (single : ∀ batch, call ≠ .createBatch batch) (trigger : Bool) (turns : List Turn) :
    Closed (call.run env (storeAfter (freshStore trigger) turns)).outcome ↔
      ¬ call.Clashes ∧ ¬ call.Oversized env ∧ ¬ call.Unwordable := by
  have calmly := strike_of_calm calm
  obtain ⟨table, left, sound⟩ := sound_after trigger turns
  rw [left]
  cases call with
  | create arguments =>
    obtain ⟨bound, fits⟩ := proper.arguments rfl
    rw [Call.plain_iff_of_request?_none rfl, Call.not_unwordable_create_iff fits]
    exact closed_map_iff.trans (closed_create_iff (calmly .commit) fits)
  | createBatch batch => exact absurd rfl (single batch)
  | get asked =>
    have words : ¬ (Call.get asked).Unwordable := nofun
    rw [Call.plain_iff_of_request?_none rfl]
    refine iff_of_true (closed_bind_iff.mpr ⟨Reading.closed_get sound (calmly .get) asked,
      fun found _ => ?_⟩) words
    cases found <;> exact closed_ok _
  | getOrFail asked =>
    rw [Call.plain_iff_of_request?_none rfl, Call.not_unwordable_getOrFail_iff]
    show Closed (Answer.earning <$> Reading.getOrFail env (some table) asked).outcome ↔ _
    rw [Audited.outcome_map, closed_map_iff]
    exact Reading.closed_getOrFail_iff sound (calmly .get)
  | query ready named =>
    obtain ⟨bound, fitted⟩ := proper.names rfl
    refine Call.closed_request_iff long proper rfl fitted
      (Audited.outcome_bind_congr (Audited.outcome_bind_of_ok fitted) _) fun f measured => ?_
    rw [Audited.outcome_map, closed_map_iff, Reading.closed_queryFilter_iff sound (calmly .execute),
      Reading.pageFits_iff measured]
    simp [Call.Pages, Call.LooksBehind]
  | queryPage ready named =>
    obtain ⟨bound, fitted⟩ := proper.names rfl
    refine Call.closed_request_iff long proper rfl fitted
      (Audited.outcome_bind_congr (Audited.outcome_bind_of_ok fitted) _) fun f measured => ?_
    rw [Audited.outcome_map, closed_map_iff, Reading.closed_pageOfFilter_iff sound (calmly .execute),
      Reading.pageFits_iff measured]
    simp [Call.Pages, Call.LooksBehind]
  | count ready withCursor named =>
    obtain ⟨bound, fitted⟩ := proper.names rfl
    refine Call.closed_request_iff long proper rfl fitted (Call.outcome_count proper fitted)
      fun f measured => ?_
    rw [Audited.outcome_map, closed_map_iff, Reading.closed_countFilter_iff (calmly .execute)]
    simp [Call.Pages, Call.LooksBehind, fitted]
  | totalAmount ready named =>
    obtain ⟨bound, fitted⟩ := proper.names rfl
    refine Call.closed_request_iff long proper rfl fitted
      (Audited.outcome_bind_congr (Audited.outcome_bind_of_ok fitted) _) fun f measured => ?_
    rw [Audited.outcome_map, closed_map_iff]
    exact iff_of_true (Reading.closed_sums (calmly .execute) Reading.kind_of_checkedSum f)
      (by simp [Call.Pages, Call.LooksBehind])
  | totalsByMiner pool challenge miner =>
    have words : ¬ (Call.totalsByMiner pool challenge miner).Unwordable := nofun
    rw [Call.plain_iff_of_request?_none rfl]
    refine iff_of_true ?_ words
    show Closed (Answer.sums <$> Reading.totalsByMiner env (some table) pool challenge miner).outcome
    rw [Audited.outcome_map, closed_map_iff]
    exact Reading.closed_totalsByMiner long (calmly .execute) pool challenge miner
  | summarize ready named =>
    obtain ⟨bound, fitted⟩ := proper.names rfl
    refine Call.closed_request_iff long proper rfl fitted
      (Audited.outcome_bind_congr (Audited.outcome_bind_of_ok fitted) _) fun f measured => ?_
    rw [Audited.outcome_map, closed_map_iff]
    exact iff_of_true (Reading.closed_totalsOfFilter long (calmly .execute) f)
      (by simp [Call.Pages, Call.LooksBehind])
  | updateAmount id amount =>
    rw [Call.plain_iff_of_request?_none rfl, Call.not_unwordable_updateAmount_iff]
    exact closed_map_iff.trans (closed_updateAmount_iff sound calmly)
  | addAmount id delta =>
    rw [Call.plain_iff_of_request?_none rfl, Call.not_unwordable_addAmount_iff]
    exact closed_map_iff.trans (closed_addAmount_iff sound calmly)

/-- A page behind the position 2⁶³, on a ledger without rows: its names are all the
filter's own, and yet the driver's refusal of that number reaches the caller.  A page
behind the largest number of a cell is shown. -/
theorem page_behind_cell_escapes :
    let env : Environment := .usual ⟨0, by decide⟩
    let page (skip : Int) : Call := .queryPage none (.dict [(.text "skip", .int skip)])
    env.injection = none ∧ 1 ≤ env.limits.maximum ∧
      (∀ skip, (page skip).Proper ∧ ∀ batch, page skip ≠ .createBatch batch) ∧
      ¬ Closed ((page (storedHigh + 1)).run env (storeAfter (freshStore true) [])).outcome ∧
      Closed ((page storedHigh).run env (storeAfter (freshStore true) [])).outcome := by
  intro env page
  have proper : ∀ skip, (page skip).Proper :=
    fun skip => .of_names rfl rfl fun _ _ _ same => nomatch same
  have single : ∀ skip batch, page skip ≠ .createBatch batch := fun _ _ same => nomatch same
  have calm : env.injection = none := rfl
  have long : 1 ≤ env.limits.maximum := by decide
  have decides := fun skip => call_closed_iff calm long (proper skip) (single skip) true []
  refine ⟨calm, long, fun skip => ⟨proper skip, single skip⟩, fun closed => ?_, ?_⟩
  · exact ((decides (storedHigh + 1)).mp closed).2.1
      ⟨_, ⟨_, _, _, rfl, rfl, rfl⟩, .inl ⟨trivial, by decide⟩⟩
  · refine (decides storedHigh).mpr ⟨?_, ?_, nofun⟩
    · intro whole
      obtain ⟨_, _, _, asked, fitted, taken⟩ := whole
      cases asked
      cases fitted
      exact absurd taken (by decide)
    · intro whole
      obtain ⟨f, ⟨_, _, _, asked, fitted, built⟩, large⟩ := whole
      cases asked
      cases fitted
      cases built
      rcases large with ⟨-, skip⟩ | ⟨-, _, seen, -⟩
      · exact absurd skip (by decide)
      · cases seen

/-- Not every call is closed: a query behind the position 2⁶³ on a ledger without rows
ends in the driver's own refusal. -/
theorem not_every_call_closed :
    ¬ ∀ (env : Environment) (call : Call) (trigger : Bool) (turns : List Turn),
      env.injection = none → (1 ≤ env.limits.usual ∧ env.limits.usual ≤ 1000) →
      1 ≤ env.limits.maximum → call.Proper → (∀ batch, call ≠ .createBatch batch) →
      Closed (call.run env (storeAfter (freshStore trigger) turns)).outcome := by
  intro every
  have proper : (Call.query none (.dict [(.text "skip", .int 9223372036854775808)])).Proper :=
    .of_names rfl rfl fun _ _ _ same => nomatch same
  have closed := every (.usual ⟨0, by decide⟩) _ false [] rfl ⟨by decide, by decide⟩ (by decide)
    proper fun _ same => nomatch same
  exact not_closed_fault .tooLarge closed

end EarningsLedger
