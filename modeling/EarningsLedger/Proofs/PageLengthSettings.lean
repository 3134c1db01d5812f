import EarningsLedger.Proofs.BoundedPages

/-!
# Page lengths and sums

Counts and sums are about all the rows that a filter picks, and the length of a page has no
part in them.  The two page lengths of the settings reach them all the same: the maximum
shortens the page of every filter, and the usual length goes into every filter that is made of
names, where it is checked like a length that was asked for.

A filter is looked at without its page length here.  What is built then is the same whatever
the settings are, as long as their usual length can be asked for: `buildFilter_bind`.
`sums_ignore_page_lengths` says so of all calls that count or add up.  Where the usual length
cannot be asked for, the calls that take it are not answered at all.
-/

namespace EarningsLedger

open Calendar Check Storage

/-! ## Chains -/

namespace Audited

variable {α β γ : Type}

theorem bind_assoc (first : Audited α) (next : α → Audited β) (last : β → Audited γ) :
    first >>= next >>= last = first >>= fun a => next a >>= last := by
  show (first.andThen next).andThen last = first.andThen fun a => (next a).andThen last
  unfold andThen
  cases first.outcome with
  | error failure => rfl
  | ok a =>
    dsimp only
    cases (next a).outcome with
    | error failure => rfl
    | ok b => simp only [List.append_assoc]

theorem map_bind (f : α → β) (first : Audited α) (next : β → Audited γ) :
    f <$> first >>= next = first >>= fun a => next (f a) := by
  show (first.andThen fun a => pure (f a)).andThen next = first.andThen fun a => next (f a)
  unfold andThen
  cases first.outcome with
  | error failure => rfl
  | ok a => simp only [List.append_nil, pure]

/-- Steps that go on alike from whatever the first one gave. -/
theorem bind_congr {first : Audited α} {next other : α → Audited β}
    (same : ∀ a, first.outcome = .ok a → next a = other a) :
    first >>= next = first >>= other := by
  show first.andThen next = first.andThen other
  unfold andThen
  cases done : first.outcome with
  | error failure => rfl
  | ok a => simp only [same a done]

end Audited

/-! ## Filters without their page length -/

namespace Filter

/-- A filter with another page length. -/
def withLength (f : Filter) (limit : Int) : Filter := { f with limit := limit }

theorem withLength_capped (f : Filter) (maximum limit : Int) :
    (f.capped maximum).withLength limit = f.withLength limit := by
  rw [capped_eq]
  rfl

/-- A page length that can be asked for goes into the filter, and changes nothing else. -/
theorem check_append_limit {data : Fields} (unsaid : data.get? "limit" = none) {limit : Int}
    (low : 1 ≤ limit) (high : limit ≤ PageBounds.longestLimit) :
    check (data ++ [("limit", .int limit)]) = (check data).map (·.withLength limit) := by
  have others : ∀ {α : Type} {name : String} {fallback : α} {rule : Rule α}, name ≠ "limit" →
      field (data ++ [("limit", .int limit)]) name (some fallback) rule =
        field data name (some fallback) rule := by
    intro α name fallback rule other
    have same : Fields.get? (data ++ [("limit", .int limit)]) name = data.get? name := by
      rw [Fields.get?_append, Fields.get?_cons, if_neg (Ne.symm other)]
      exact Option.or_none
    unfold field
    rw [same]
  have given : field (data ++ [("limit", .int limit)]) "limit" (some PageBounds.usualLimit)
      (bounded looseInt (some 1) (some PageBounds.longestLimit)) = .ok limit := by
    refine field_eq_ok_iff.mpr (.inr ⟨.int limit, ?_, bounded_eq_ok_iff.mpr ⟨rfl, low, high⟩⟩)
    rw [Fields.get?_append, unsaid]
    rfl
  have usual : field data "limit" (some PageBounds.usualLimit)
      (bounded looseInt (some 1) (some PageBounds.longestLimit)) = .ok PageBounds.usualLimit :=
    field_eq_ok_iff.mpr (.inl ⟨unsaid, rfl⟩)
  unfold check PageBounds.check ownerNumber
  rw [given, usual, others (by decide), others (by decide), others (by decide),
    others (by decide), others (by decide)]
  -- the issues of the position and of the owner are the same with either length
  generalize field data "skip" (some 0) count = skip
  generalize Verdict.both (field data "miner_id" (some none) (optional key)) _ = owner
  cases skip <;> cases owner <;> rfl

end Filter

/-! ## Checks of more names -/

theorem Fields.get?_of_has {fields : Fields} {name : String} (absent : fields.has name = false) :
    fields.get? name = none :=
  Option.isNone_iff_eq_none.mp
    (Option.isSome_eq_false_iff.mp ((fields.isSome_get? name).trans absent))

theorem clashing_append (data more : Fields) :
    clashing (data ++ more) = (clashing data || clashing more) := by
  rw [clashing, clashing, clashing, Fields.has_append, Fields.has_append]
  cases data.has "schema" <;> cases data.has "event" <;> cases more.has "schema" <;>
    cases more.has "event" <;> rfl

/-- A misuse of the check is the same when more names follow. -/
theorem checkSignature_bind_append {data : Fields} (taken : clashing data = true) (more : Fields) :
    checkSignature.bind [.null, .null] (data ++ more) =
      checkSignature.bind [.null, .null] data := by
  rcases checkSignature_foldlM data [] with ⟨free, -⟩ | ⟨-, name, -, -, failed⟩
  · rw [taken] at free
    cases free
  · have start : (checkSignature.parameters.map Binding.Parameter.name).zip
        [Value.null, Value.null] = [("schema", .null), ("event", .null)] := rfl
    unfold Binding.Signature.bind
    dsimp only
    rw [start, List.foldlM_append, failed]
    rfl

/-- A rejection has no result that could be turned into something else. -/
theorem map_reject {α β : Type} (change : α → β) (message event : String) (field : Fields)
    (error : LedgerError) :
    change <$> (reject message event field error : Audited α) =
      reject message event field error := by
  unfold reject
  split <;> rfl

/-- Names that only turn what is checked into something else do so behind the check. -/
theorem approve_append {α : Type} {check : Fields → Verdict α} {event : String}
    {data more : Fields} {change : α → α} (clear : clashing more = false)
    (checks : check (data ++ more) = (check data).map change) :
    approve check event (data ++ more) = change <$> approve check event data := by
  have whole : clashing (data ++ more) = clashing data := by
    rw [clashing_append, clear, Bool.or_false]
  unfold approve
  rcases checkSignature_bind_cases data with
    ⟨free, bound, fits⟩ | ⟨taken, name, -, -, failed⟩
  · obtain ⟨bound', fits'⟩ : ∃ bound,
        checkSignature.bind [.null, .null] (data ++ more) = .ok bound := by
      rcases checkSignature_bind_cases (data ++ more) with ⟨-, fits'⟩ | ⟨taken, -⟩
      · exact fits'
      · rw [whole, free] at taken
        cases taken
    rw [fits, fits', checks]
    cases check data with
    | ok a => rfl
    | error issues => exact (map_reject change _ _ _ _).symm
  · rw [checkSignature_bind_append taken, failed]
    rfl

/-! ## Filters of requests -/

/-- Page lengths of which the usual one can be asked for. -/
def Limits.Usable (limits : Limits) : Prop :=
  1 ≤ limits.usual ∧ limits.usual ≤ PageBounds.longestLimit

instance (limits : Limits) : Decidable limits.Usable := inferInstanceAs (Decidable (_ ∧ _))

/-- The filter of a request, before the settings have a part in it. -/
def statedFilter (ready : Option Filter) (names : Fields) : Audited Filter :=
  match ready with
  | some f =>
    if names.isEmpty then pure f else approve Filter.check filterEvent (f.fields.putAll names)
  | none => approve Filter.check filterEvent names.present

/-- Whether the filter of a request gets the usual page length: it is made of names, and
none of them is a page length. -/
def takesUsual (ready : Option Filter) (names : Fields) : Bool :=
  ready.isNone && !names.present.has "limit"

variable {β : Type} {limits : Limits} {ready : Option Filter} {names : Fields}

/-- **The settings change the page length of a filter and nothing else**, so what does not
look at the page length goes on as if there were none. -/
theorem buildFilter_bind (usable : takesUsual ready names = true → limits.Usable)
    {next : Filter → Audited β} (blind : ∀ f limit, next (f.withLength limit) = next f) :
    buildFilter limits ready names >>= next = statedFilter ready names >>= next := by
  have capped : ∀ stated : Audited Filter,
      (stated >>= fun f => pure (f.capped limits.maximum)) >>= next = stated >>= next := by
    intro stated
    refine (Audited.map_bind (fun f => f.capped limits.maximum) stated next).trans ?_
    refine Audited.bind_congr fun f _ => ?_
    rw [← blind (f.capped limits.maximum) 0, Filter.withLength_capped, blind]
  cases ready with
  | some f =>
    cases names with
    | nil => exact capped (pure f)
    | cons first rest =>
      exact capped (approve Filter.check filterEvent (f.fields.putAll (first :: rest)))
  | none =>
    refine (capped (approve Filter.check filterEvent (namedFilter limits names))).trans ?_
    unfold namedFilter statedFilter
    dsimp only
    split
    · rfl
    · next unsaid =>
      have unsaid : names.present.has "limit" = false := Bool.eq_false_iff.mpr unsaid
      obtain ⟨low, high⟩ := usable (by simp [takesUsual, unsaid])
      have checks := Filter.check_append_limit (Fields.get?_of_has unsaid) low high
      rw [approve_append rfl checks, Audited.map_bind]
      exact Audited.bind_congr fun f _ => blind f _

theorem buildFilter_bind_congr {a b : Limits}
    (usable : takesUsual ready names = true → a.Usable ∧ b.Usable)
    {next : Filter → Audited β} (blind : ∀ f limit, next (f.withLength limit) = next f) :
    buildFilter a ready names >>= next = buildFilter b ready names >>= next :=
  (buildFilter_bind (fun takes => (usable takes).1) blind).trans
    (buildFilter_bind (fun takes => (usable takes).2) blind).symm

/-- A filter that takes the usual page length is not built unless that can be asked for. -/
theorem usable_of_buildFilter {f : Filter} (takes : takesUsual ready names = true)
    (built : (buildFilter limits ready names).outcome = .ok f) : limits.Usable := by
  simp only [takesUsual, Bool.and_eq_true, Option.isNone_iff_eq_none, Bool.not_eq_true'] at takes
  obtain ⟨rfl, unsaid⟩ := takes
  obtain ⟨input, asked, given, loose, measured, -⟩ :=
    limit_of_buildFilter (by rintro f ⟨⟩) built
  have said : (requestedParts limits none names).get? "limit" = some (.int limits.usual) := by
    show (namedFilter limits names).get? "limit" = _
    unfold namedFilter
    dsimp only
    rw [unsaid, if_neg Bool.false_ne_true, Fields.get?_append, Fields.get?_of_has unsaid]
    rfl
  obtain rfl := Option.some.inj (said.symm.trans given)
  obtain rfl : limits.usual = asked := Except.ok.inj loose
  exact measured

/-! ## Calls that count or add up -/

namespace Call

/-- The calls that count earnings or add them up. -/
def aggregates : Call → Bool
  | count _ _ _ => true
  | totalAmount _ _ => true
  | totalsByMiner _ _ _ => true
  | summarize _ _ => true
  | _ => false

/-- The calls that put the usual page length into a filter: those that make one of names
without a page length.  The sums of the miners are always asked for by the names of the
owner, also where they are a part of the totals of a filter that was handed over
ready-made. -/
inductive TakesUsual : Call → Prop
  | count {ready : Option Filter} {cursor : Option Value} {named : Value} {bound : Binding.Bound}
    (read : (filterNames "count" [⟨"with_cursor", true⟩] named).outcome = .ok bound)
    (takes : takesUsual ready bound.extras = true) : TakesUsual (count ready cursor named)
  | totalAmount {ready : Option Filter} {named : Value} {bound : Binding.Bound}
    (read : (filterNames "total_amount" [] named).outcome = .ok bound)
    (takes : takesUsual ready bound.extras = true) : TakesUsual (totalAmount ready named)
  | totalsByMiner (pool challenge miner : Value) : TakesUsual (totalsByMiner pool challenge miner)
  | summarize (ready : Option Filter) (named : Value) : TakesUsual (summarize ready named)

end Call

/-- The sums of the miners are the same under all settings whose usual page length can be
asked for. -/
theorem Reading.totalsByMiner_withLimits {a b : Limits} (usable : a.Usable ∧ b.Usable)
    (env : Environment) (store : Store) (pool challenge miner : Value) :
    totalsByMiner (env.withLimits a) store pool challenge miner =
      totalsByMiner (env.withLimits b) store pool challenge miner :=
  buildFilter_bind_congr (fun _ => usable) fun _ _ => rfl

theorem Reading.totalsOfFilter_withLimits {a b : Limits} (usable : a.Usable ∧ b.Usable)
    (env : Environment) (store : Store) (f : Filter) :
    totalsOfFilter (env.withLimits a) store f = totalsOfFilter (env.withLimits b) store f := by
  unfold totalsOfFilter
  dsimp only
  rw [totalsByMiner_withLimits usable]
  rfl

theorem Call.run_withLimits {call : Call} (aggregates : call.aggregates = true) {a b : Limits}
    (usable : call.TakesUsual → a.Usable ∧ b.Usable) (env : Environment) (store : Store) :
    call.run (env.withLimits a) store = call.run (env.withLimits b) store := by
  cases call with
  | count ready cursor named =>
    refine congrArg (reading store) (Audited.bind_congr fun bound read => ?_)
    have built : ∀ flag : Value,
        buildFilter a ready bound.extras >>= (fun f =>
          Answer.number <$> Reading.countFilter env store f flag.isSomething) =
        buildFilter b ready bound.extras >>= (fun f =>
          Answer.number <$> Reading.countFilter env store f flag.isSomething) :=
      fun flag => buildFilter_bind_congr (fun takes => usable (.count read takes)) fun _ _ => rfl
    dsimp only
    split
    · rfl
    · exact built _
    · exact built _
  | totalAmount ready named =>
    refine congrArg (reading store) ?_
    unfold filterFor
    rw [Audited.bind_assoc, Audited.bind_assoc]
    refine Audited.bind_congr fun bound read => ?_
    exact buildFilter_bind_congr (fun takes => usable (.totalAmount read takes)) fun _ _ => rfl
  | totalsByMiner pool challenge miner =>
    have usable := usable (.totalsByMiner pool challenge miner)
    exact congrArg (fun sums => reading store (.sums <$> sums))
      (Reading.totalsByMiner_withLimits usable env store pool challenge miner)
  | summarize ready named =>
    have usable := usable (.summarize ready named)
    refine congrArg (reading store) ?_
    unfold filterFor
    rw [Audited.bind_assoc, Audited.bind_assoc]
    refine Audited.bind_congr fun bound read => ?_
    simp only [Reading.totalsOfFilter_withLimits usable env store]
    exact buildFilter_bind_congr (fun _ => usable) fun _ _ => rfl
  | _ => cases aggregates

/-- **A call that takes the usual page length is not answered unless that can be asked
for.** -/
theorem Call.usable_of_answered {call : Call} (takes : call.TakesUsual) {env : Environment}
    {store : Store} {answer : Answer} (done : (call.run env store).outcome = .ok answer) :
    env.limits.Usable := by
  have summed : ∀ {pool challenge miner : Value} {sums : List (Int × Int)},
      (Reading.totalsByMiner env store pool challenge miner).outcome = .ok sums →
      env.limits.Usable := by
    intro pool challenge miner sums done
    obtain ⟨f, built, -⟩ := Audited.outcome_bind_eq_ok_iff.mp done
    refine usable_of_buildFilter ?_ built
    have unsaid : Fields.has (Fields.present
        [("pool_id", pool), ("challenge_id", challenge), ("miner_id", miner)]) "limit" = false :=
      Fields.has_present rfl
    rw [takesUsual, unsaid]
    rfl
  cases takes with
  | count read takes =>
    obtain ⟨bound, read', rest⟩ := Audited.outcome_bind_eq_ok_iff.mp done
    obtain rfl := Except.ok.inj (read.symm.trans read')
    dsimp only at rest
    split at rest
    · cases rest
    · obtain ⟨flag, -, rest⟩ := Audited.outcome_bind_eq_ok_iff.mp rest
      obtain ⟨f, built, -⟩ := Audited.outcome_bind_eq_ok_iff.mp rest
      exact usable_of_buildFilter takes built
    · obtain ⟨flag, -, rest⟩ := Audited.outcome_bind_eq_ok_iff.mp rest
      obtain ⟨f, built, -⟩ := Audited.outcome_bind_eq_ok_iff.mp rest
      exact usable_of_buildFilter takes built
  | totalAmount read takes =>
    obtain ⟨f, filtered, -⟩ := Audited.outcome_bind_eq_ok_iff.mp done
    obtain ⟨bound, read', built⟩ := Audited.outcome_bind_eq_ok_iff.mp filtered
    obtain rfl := Except.ok.inj (read.symm.trans read')
    exact usable_of_buildFilter takes built
  | totalsByMiner pool challenge miner =>
    obtain ⟨sums, done, -⟩ := map_eq_ok_iff.mp ((Audited.outcome_map _ _).symm.trans done)
    exact summed done
  | summarize ready named =>
    obtain ⟨f, -, told⟩ := Audited.outcome_bind_eq_ok_iff.mp done
    obtain ⟨totals, told', -⟩ := map_eq_ok_iff.mp ((Audited.outcome_map _ _).symm.trans told)
    obtain ⟨sums, done', -⟩ := Audited.outcome_bind_eq_ok_iff.mp told'
    exact summed done'

/-- **Page lengths have no part in counts and sums**, as long as the usual one can be asked
for: on any store, a call that counts or adds up ends in the same way, writes the same log
and leaves the same store under any two settings, whatever their maximum is.  The usual
length matters to those calls only that put it into a filter, and these are not answered at
all where it cannot be asked for. -/
theorem sums_ignore_page_lengths {call : Call} (aggregates : call.aggregates = true)
    (env : Environment) (store : Store) (a b : Limits) :
    ((call.TakesUsual → a.Usable ∧ b.Usable) →
      call.run (env.withLimits a) store = call.run (env.withLimits b) store) ∧
    (call.TakesUsual → ¬ a.Usable →
      ∀ answer, (call.run (env.withLimits a) store).outcome ≠ .ok answer) :=
  ⟨fun usable => call.run_withLimits aggregates usable env store,
    fun takes unusable _ done => unusable (Call.usable_of_answered takes done)⟩

/-- Two earnings of five, counted by the names of their owner under pages of one and no
longest page at all, and under the usual pages. -/
theorem two_earnings_counted_under_two_settings :
    let now : Instant := ⟨10, by decide⟩
    let env : Environment := .usual now
    let item : Value := .ofFields fiveAsked
    let store := storeAfter (freshStore true) [⟨env, .createBatch (.list [item, item])⟩]
    let call : Call := .count none none (.ofFields [("miner_id", .int 1), ("pool_id", .int 1)])
    call.aggregates = true ∧ (call.run (env.withLimits ⟨1, -1⟩) store).outcome = .ok (.number 2) ∧
      call.run (env.withLimits ⟨1, -1⟩) store = call.run (env.withLimits ⟨100, 1000⟩) store := by
  intro now env item store call
  have same := (sums_ignore_page_lengths (rfl : call.aggregates = true) env store
    ⟨1, -1⟩ ⟨100, 1000⟩).1 fun _ => ⟨by decide, by decide⟩
  exact ⟨rfl, rfl, same⟩

/-- A usual page length of zero: a ledger without rows can no longer be counted, unless the
filter is handed over ready-made, and the totals of such a filter are not told either. -/
theorem page_length_stops_counts :
    let env : Environment := .usual ⟨10, by decide⟩
    let store := freshStore true
    let f : Filter := ⟨0, 100, none, none, none, none⟩
    let named : Value := .dict []
    let short : LedgerError := errorOfIssues [⟨[.name "limit"], .below 1, .int 0⟩]
    ((Call.count none none named).run (env.withLimits ⟨100, 1000⟩) store).outcome =
        .ok (.number 0) ∧
      ((Call.count none none named).run (env.withLimits ⟨0, 1000⟩) store).outcome =
        .error (.ledger short) ∧
      ((Call.count (some f) none named).run (env.withLimits ⟨0, 1000⟩) store).outcome =
        .ok (.number 0) ∧
      ((Call.summarize (some f) named).run (env.withLimits ⟨0, 1000⟩) store).outcome =
        .error (.ledger short) :=
  ⟨rfl, rfl, rfl, rfl⟩

end EarningsLedger
