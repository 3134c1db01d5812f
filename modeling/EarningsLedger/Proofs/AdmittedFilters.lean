import EarningsLedger.Proofs.AdmittedRequests

/-!
# Filters that the ledger builds

A request on a filter ends in one of three ways.  Names that the check of a request
uses itself make the call of that check a misuse, before anything is checked.  Values
that fail their check are rejected with an error of the ledger.  And otherwise there is
a filter, whose page has a length between 1 and 1000 while the maximum in force is at
least 1.  `buildFilter_cases` says so; positions and identifiers have no upper bound at
all.
-/

namespace EarningsLedger

open Check

/-! ## Page lengths -/

/-- A filter whose page has a length that can be asked for. -/
def Filter.Measured (f : Filter) : Prop := 1 ≤ f.limit ∧ f.limit ≤ PageBounds.longestLimit

theorem Filter.measured_of_check {fields : Fields} {f : Filter} (passed : check fields = .ok f) :
    f.Measured := by
  obtain ⟨⟨bounds, miner, pool, challenge, after⟩, parts, rfl⟩ := map_eq_ok_iff.mp passed
  obtain ⟨⟨skip, limit⟩, both, rfl⟩ := map_eq_ok_iff.mp (Verdict.both_eq_ok.mp parts).1
  show 1 ≤ limit ∧ limit ≤ PageBounds.longestLimit
  rcases field_eq_ok_iff.mp (Verdict.both_eq_ok.mp both).2 with
    ⟨-, usual⟩ | ⟨input, -, admitted⟩
  · have usual : limit = PageBounds.usualLimit := usual
    rw [usual]
    decide
  · exact (bounded_eq_ok_iff.mp admitted).2

/-- A page length that was given with the names of a filter is the one that it gets. -/
theorem Filter.limit_of_check {fields : Fields} {f : Filter} {input : Value}
    (passed : check fields = .ok f) (given : fields.get? "limit" = some input) :
    looseInt input = .ok f.limit := by
  obtain ⟨⟨bounds, miner, pool, challenge, after⟩, parts, rfl⟩ := map_eq_ok_iff.mp passed
  obtain ⟨⟨skip, limit⟩, both, rfl⟩ := map_eq_ok_iff.mp (Verdict.both_eq_ok.mp parts).1
  rcases field_eq_ok_iff.mp (Verdict.both_eq_ok.mp both).2 with
    ⟨absent, -⟩ | ⟨other, same, admitted⟩
  · rw [given] at absent
    cases absent
  · obtain rfl := Option.some.inj (given.symm.trans same)
    exact (bounded_eq_ok_iff.mp admitted).1

theorem Filter.measured_capped {f : Filter} {maximum : Int} (measured : f.Measured)
    (long : 1 ≤ maximum) : (f.capped maximum).Measured := by
  unfold Filter.capped
  split
  · next lower =>
    have high := measured.2
    exact ⟨long, by dsimp only; omega⟩
  · exact measured

/-! ## Issues that are not about sums -/

namespace Check

variable {α β : Type}

/-- No issue of a verdict is about a sum out of its range. -/
def Verdict.Sumless (verdict : Verdict α) : Prop :=
  ∀ issues, verdict = .error issues → ∀ issue ∈ issues, issue.isAmountRange = false

theorem Verdict.Sumless.both {left : Verdict α} {right : Verdict β} (first : left.Sumless)
    (second : right.Sumless) : (Verdict.both left right).Sumless := by
  intro issues failed
  cases left with
  | ok a =>
    cases right with
    | ok b => cases failed
    | error found =>
      cases failed
      exact second _ rfl
  | error found =>
    cases right with
    | ok b =>
      cases failed
      exact first _ rfl
    | error more =>
      cases failed
      exact List.forall_mem_append.mpr ⟨first _ rfl, second _ rfl⟩

theorem Verdict.Sumless.map {verdict : Verdict α} (sumless : verdict.Sumless) (f : α → β) :
    Verdict.Sumless (verdict.map f) := fun issues failed => sumless issues (map_eq_error_iff.mp failed)

/-- The issues of a field that is no sum. -/
theorem sumless_field {name : String} (other : name ≠ "amount" ∧ name ≠ "delta") (fields : Fields)
    (fallback : Option α) (rule : Rule α) : (field fields name fallback rule).Sumless := by
  have below : ∀ verdict : Verdict α, (verdict.under (.name name)).Sumless := by
    intro verdict issues failed issue member
    cases verdict with
    | ok a => cases failed
    | error inner =>
      cases failed
      obtain ⟨blamed, -, rfl⟩ := List.mem_map.mp member
      simp [Issue.isAmountRange, Issue.under, other]
  unfold field
  cases fields.get? name with
  | some input => exact below _
  | none =>
    cases fallback with
    | some given => exact fun _ failed => nomatch failed
    | none => exact below _

theorem Issue.isWorded_error (issue : Issue) : issue.error.isWorded = true := by
  unfold Issue.error
  dsimp only
  split <;> rfl

/-- The error of issues shows a value of the caller's only when one of them is about a sum. -/
theorem isWorded_errorOfIssues {issues : List Issue}
    (sumless : ∀ issue ∈ issues, issue.isAmountRange = false) :
    (errorOfIssues issues).isWorded = true := by
  have none : issues.find? Issue.isAmountRange = none :=
    List.find?_eq_none.mpr fun issue member => by simp [sumless issue member]
  unfold errorOfIssues
  rw [none]
  cases issues with
  | nil => rfl
  | cons issue rest => exact issue.isWorded_error

end Check

/-- A filter asks for no sum. -/
theorem Filter.sumless_check (fields : Fields) : (check fields).Sumless := by
  unfold check PageBounds.check ownerNumber
  refine .map (.both (.map (.both ?_ ?_) _) (.both ?_ (.both ?_ (.both ?_ ?_)))) _
  all_goals exact sumless_field (by decide) fields _ _

/-! ## Names of the check -/

namespace Fields

theorem has_cons (field : String × Value) (rest : Fields) (name : String) :
    has (field :: rest) name = (field.1 == name || rest.has name) := rfl

/-- A name has a value exactly when it is there. -/
theorem isSome_get? (fields : Fields) (name : String) :
    (fields.get? name).isSome = fields.has name := by
  rw [get?, Option.isSome_map, List.isSome_find?]
  rfl

theorem has_append (fields more : Fields) (name : String) :
    has (fields ++ more) name = (fields.has name || more.has name) :=
  List.any_append

theorem has_put (fields : Fields) (name other : String) (value : Value) :
    (fields.put name value).has other = (fields.has other || name == other) := by
  unfold put
  split
  · next present =>
    -- the field keeps its name, and the new one was there before
    have names : ∀ field : String × Value,
        (if field.1 == name then (name, value) else field).1 = field.1 := by
      intro field
      split
      · next same => exact (beq_iff_eq.mp same).symm
      · rfl
    have kept : has (fields.map fun field => if field.1 == name then (name, value) else field)
        other = fields.has other := by
      unfold has
      rw [List.any_map]
      exact congrArg (fields.any ·) (funext fun field => by rw [Function.comp, names])
    rw [kept]
    by_cases same : name = other
    · subst same
      simp [present]
    · simp [same]
  · rw [has_append]
    simp [has]

theorem has_putAll (fields more : Fields) (name : String) :
    (fields.putAll more).has name = (fields.has name || more.has name) := by
  induction more generalizing fields with
  | nil => simp [putAll, has]
  | cons field rest ih =>
    have step : fields.putAll (field :: rest) = (fields.put field.1 field.2).putAll rest := rfl
    rw [step, ih, has_put, has_cons, Bool.or_assoc]

theorem has_present {fields : Fields} {name : String} (absent : fields.has name = false) :
    fields.present.has name = false := by
  unfold has at absent ⊢
  rw [List.any_eq_false] at absent ⊢
  exact fun field member => absent field (List.mem_filter.mp member).1

end Fields

/-- Whether names hold one that the check of a request uses itself. -/
def clashing (data : Fields) : Bool := data.has "schema" || data.has "event"

/-- Leaving out names that have no value makes no clash. -/
theorem clashing_present {data : Fields} (free : clashing data = false) :
    clashing data.present = false := by
  rw [clashing, Bool.or_eq_false_iff] at free ⊢
  exact ⟨Fields.has_present free.1, Fields.has_present free.2⟩

theorem clashing_cons (field : String × Value) (rest : Fields) :
    clashing (field :: rest) = ((field.1 == "schema" || field.1 == "event") || clashing rest) := by
  simp only [clashing, Fields.has_cons]
  cases field.1 == "schema" <;> cases field.1 == "event" <;> simp

/-- The check takes every name but its own, and keeps it with the names it gathers. -/
theorem checkSignature_bindName (extras : Fields) (field : String × Value) :
    checkSignature.bindName ⟨[("schema", .null), ("event", .null)], extras⟩ field =
      if field.1 == "schema" || field.1 == "event" then
        .error (.repeatedArgument checkSignature.callee field.1)
      else .ok ⟨[("schema", .null), ("event", .null)], extras ++ [field]⟩ := by
  by_cases schema : field.1 = "schema"
  · simp [Binding.Signature.bindName, checkSignature, Fields.has, schema]
  · by_cases event : field.1 = "event"
    · simp [Binding.Signature.bindName, checkSignature, Fields.has, event]
    · simp [Binding.Signature.bindName, checkSignature, Fields.has, schema, event,
        Ne.symm schema, Ne.symm event]

theorem checkSignature_foldlM (data extras : Fields) :
    (clashing data = false ∧
      data.foldlM checkSignature.bindName ⟨[("schema", .null), ("event", .null)], extras⟩ =
        .ok ⟨[("schema", .null), ("event", .null)], extras ++ data⟩) ∨
    (clashing data = true ∧ ∃ name ∈ ["schema", "event"], data.has name = true ∧
      data.foldlM checkSignature.bindName ⟨[("schema", .null), ("event", .null)], extras⟩ =
        .error (.repeatedArgument checkSignature.callee name)) := by
  induction data generalizing extras with
  | nil => exact .inl ⟨rfl, by rw [List.append_nil]; rfl⟩
  | cons field rest ih =>
    rw [clashing_cons, List.foldlM_cons, checkSignature_bindName]
    cases own : field.1 == "schema" || field.1 == "event" with
    | true =>
      refine .inr ⟨rfl, field.1, by simpa using own, ?_, rfl⟩
      rw [Fields.has_cons, beq_self_eq_true, Bool.true_or]
    | false =>
      have whole : extras ++ field :: rest = extras ++ [field] ++ rest := by simp
      rw [whole]
      rcases ih (extras ++ [field]) with done | ⟨taken, name, own, there, failed⟩
      · exact .inl done
      · exact .inr ⟨taken, name, own, by rw [Fields.has_cons, there, Bool.or_true], failed⟩

/-- Names fit the check exactly when none of them is its own; one that is its own is given to it
twice. -/
theorem checkSignature_bind_cases (data : Fields) :
    (clashing data = false ∧ ∃ bound, checkSignature.bind [.null, .null] data = .ok bound) ∨
    (clashing data = true ∧ ∃ name ∈ ["schema", "event"], data.has name = true ∧
      checkSignature.bind [.null, .null] data =
        .error (.repeatedArgument checkSignature.callee name)) := by
  rcases checkSignature_foldlM data [] with
    ⟨free, done⟩ | ⟨taken, name, own, there, failed⟩
  · refine .inl ⟨free, _, Binding.Signature.bind_eq_ok_iff.mpr ⟨done, by decide, ?_⟩⟩
    intro p member _
    rcases List.mem_cons.mp member with rfl | member
    · rfl
    · cases List.mem_singleton.mp member
      rfl
  · refine .inr ⟨taken, name, own, there, ?_⟩
    unfold Binding.Signature.bind
    dsimp only
    rw [show (checkSignature.parameters.map Binding.Parameter.name).zip [Value.null, Value.null] =
      [("schema", .null), ("event", .null)] from rfl, failed]
    rfl

/-! ## How a filter is built -/

/-- The names of a request that reach the check: with a ready-made filter all of them,
and without one those that have a value. -/
def handed (ready : Option Filter) (extras : Fields) : Fields :=
  if ready.isSome then extras else extras.present

theorem clashing_namedFilter (limits : Limits) (named : Fields) :
    clashing (namedFilter limits named) = clashing named.present := by
  unfold namedFilter
  dsimp only
  split
  · rfl
  · rw [clashing, Fields.has_append, Fields.has_append]
    simp [clashing, Fields.has]

theorem clashing_putAll_fields (f : Filter) (named : Fields) :
    clashing (f.fields.putAll named) = clashing named := by
  rw [clashing, Fields.has_putAll, Fields.has_putAll]
  rfl

/-- A check of names is a misuse exactly when one of them is its own, and ends otherwise
in what it checked or in the error of its issues. -/
theorem outcome_approve_cases {α : Type} (check : Fields → Verdict α) (event : String)
    (data : Fields) :
    (clashing data = true ∧ ∃ misuse, (approve check event data).outcome =
      .error (.misuse misuse)) ∨
    (clashing data = false ∧
      ((∃ issues, check data = .error issues ∧
          (approve check event data).outcome = .error (errorOfIssues issues).raised) ∨
        ∃ a, check data = .ok a ∧ (approve check event data).outcome = .ok a)) := by
  rcases checkSignature_bind_cases data with
    ⟨free, bound, fits⟩ | ⟨taken, name, -, -, failed⟩
  · refine .inr ⟨free, ?_⟩
    cases checked : check data with
    | error issues =>
      exact .inl ⟨issues, rfl,
        outcome_approve_eq_error_iff.mpr (.inr ⟨bound, issues, fits, checked, rfl⟩)⟩
    | ok a => exact .inr ⟨a, rfl, outcome_approve_eq_ok_iff.mpr ⟨⟨bound, fits⟩, checked⟩⟩
  · exact .inl ⟨taken, _, outcome_approve_eq_error_iff.mpr (.inl ⟨_, failed, rfl⟩)⟩

/-- A check of names that are not its own ends as the check of the data does. -/
theorem outcome_approve_of_free {α : Type} {check : Fields → Verdict α} {event : String}
    {data : Fields} (free : clashing data = false) :
    (approve check event data).outcome =
      (check data).mapError fun issues => (errorOfIssues issues).raised := by
  rcases checkSignature_bind_cases data with ⟨-, bound, fits⟩ | ⟨taken, -⟩
  · cases checked : check data with
    | ok a => exact outcome_approve_eq_ok_iff.mpr ⟨⟨bound, fits⟩, checked⟩
    | error issues =>
      exact outcome_approve_eq_error_iff.mpr (.inr ⟨bound, issues, fits, checked, rfl⟩)
  · rw [free] at taken
    cases taken

/-- Names without a ready-made filter make the one that their check makes, with its page no
longer than the maximum. -/
theorem outcome_buildFilter_of_check {limits : Limits} {named : Fields} {f : Filter}
    (free : clashing named.present = false)
    (passed : Filter.check (namedFilter limits named) = .ok f) :
    (buildFilter limits none named).outcome = .ok (f.capped limits.maximum) := by
  have approved : (approve Filter.check filterEvent (namedFilter limits named)).outcome = .ok f := by
    rcases checkSignature_bind_cases (namedFilter limits named) with ⟨-, fits⟩ | ⟨taken, -⟩
    · exact outcome_approve_eq_ok_iff.mpr ⟨fits, passed⟩
    · rw [clashing_namedFilter, free] at taken
      cases taken
  exact Audited.outcome_bind_of_ok approved

/-- **How a filter is built**: not at all when a name clashes with the check, and
otherwise it is rejected with an error of the ledger, or it has a page length that can be
asked for. -/
theorem buildFilter_cases {limits : Limits} (long : 1 ≤ limits.maximum) {ready : Option Filter}
    (checked : ∀ f, ready = some f → ∃ fields, Filter.check fields = .ok f) (extras : Fields) :
    (clashing (handed ready extras) = true ∧ ∃ misuse,
      (buildFilter limits ready extras).outcome = .error (.misuse misuse)) ∨
    (clashing (handed ready extras) = false ∧
      ((∃ error, (buildFilter limits ready extras).outcome = .error (.ledger error)) ∨
        ∃ f, f.Measured ∧ (buildFilter limits ready extras).outcome = .ok f)) := by
  have capped : ∀ {checked : Audited Filter} {data : Fields},
      checked = approve Filter.check filterEvent data → clashing data = clashing (handed ready extras) →
      (clashing (handed ready extras) = true ∧ ∃ misuse,
        (checked >>= fun f => pure (f.capped limits.maximum)).outcome = .error (.misuse misuse)) ∨
      (clashing (handed ready extras) = false ∧
        ((∃ error, (checked >>= fun f => pure (f.capped limits.maximum)).outcome =
          .error (.ledger error)) ∨
        ∃ f, f.Measured ∧
          (checked >>= fun f => pure (f.capped limits.maximum)).outcome = .ok f)) := by
    rintro _ data rfl same
    rw [← same]
    rcases outcome_approve_cases Filter.check filterEvent data with
      ⟨taken, misuse, failed⟩ | ⟨free, ⟨issues, refused, failed⟩ | ⟨f, passed, admitted⟩⟩
    · exact .inl ⟨taken, misuse, Audited.outcome_bind_of_error failed⟩
    · have worded := isWorded_errorOfIssues (Filter.sumless_check data issues refused)
      rw [LedgerError.raised_of_worded worded] at failed
      exact .inr ⟨free, .inl ⟨_, Audited.outcome_bind_of_error failed⟩⟩
    · exact .inr ⟨free, .inr ⟨_, Filter.measured_capped (Filter.measured_of_check passed) long,
        Audited.outcome_bind_of_ok admitted⟩⟩
  cases ready with
  | none => exact capped rfl (clashing_namedFilter limits extras)
  | some f =>
    cases extras with
    | nil =>
      obtain ⟨fields, passed⟩ := checked f rfl
      exact .inr ⟨rfl, .inr ⟨_, Filter.measured_capped (Filter.measured_of_check passed) long, rfl⟩⟩
    | cons field rest => exact capped rfl (clashing_putAll_fields f (field :: rest))

end EarningsLedger
