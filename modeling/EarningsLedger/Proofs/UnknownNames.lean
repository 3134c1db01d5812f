import EarningsLedger.Proofs.ComposedFilters

/-!
# Names that make no earning

An item of a batch is a dictionary of any names.  Four of them make the earning, and the
form of an earning passes over all others.  A batch hands the names of an item to the check
of requests, though, which has two parameters of its own, and these are not passed over:
`other_names_passed_over_iff` says that a batch ends just as it would without the other
names exactly when no item that is read has one of the two.

The items are read in order, up to the first that is refused, so an item behind that one may
have any names.
-/

namespace EarningsLedger

open Check Storage Writing

/-! ## Issues apart from the request -/

namespace Check

variable {α β : Type}

/-- The issue without the request that a missing field was looked for in. -/
def Issue.bare (issue : Issue) : Issue :=
  if issue.cause = .missing then { issue with input := .null } else issue

/-- The verdict, with the issues apart from the request. -/
def Verdict.bare (verdict : Verdict α) : Verdict α := verdict.mapError (List.map Issue.bare)

namespace Issue

variable (issue : Issue)

theorem bare_under (step : PathStep) : (issue.under step).bare = issue.bare.under step := by
  unfold bare under
  dsimp only
  split <;> rfl

theorem isAmountRange_bare : issue.bare.isAmountRange = issue.isAmountRange := by
  unfold bare isAmountRange
  split <;> rfl

/-- An amount out of range is there, so nothing is left out of its issue. -/
theorem bare_of_isAmountRange {issue : Issue} (ranged : issue.isAmountRange = true) :
    issue.bare = issue := by
  refine if_neg fun missing => ?_
  rw [isAmountRange, missing] at ranged
  cases ranged

theorem error_bare : issue.bare.error = issue.error := by
  unfold bare
  split
  · next missing => simp only [error, missing, true_or, if_true]
  · rfl

end Issue

namespace Verdict

theorem bare_under (step : PathStep) (verdict : Verdict α) :
    (verdict.under step).bare = verdict.bare.under step := by
  cases verdict with
  | ok a => rfl
  | error issues =>
    simp only [bare, under, Except.mapError, List.map_map]
    refine congrArg Except.error (List.map_congr_left fun issue _ => ?_)
    exact issue.bare_under step

theorem bare_both (left : Verdict α) (right : Verdict β) :
    (both left right).bare = both left.bare right.bare := by
  cases left with
  | ok a => cases right <;> rfl
  | error issues =>
    cases right with
    | ok b => rfl
    | error more => simp only [bare, both, Except.mapError, List.map_append]

theorem bare_map (f : α → β) (verdict : Verdict α) :
    Verdict.bare (verdict.map f) = verdict.bare.map f := by
  cases verdict <;> rfl

end Verdict

/-- A field is checked by what stands under its name, apart from the request that it is
missing in. -/
theorem bare_field {fields other : Fields} {name : String}
    (same : fields.get? name = other.get? name) (fallback : Option α) (rule : Rule α) :
    (field fields name fallback rule).bare = (field other name fallback rule).bare := by
  unfold field
  rw [same]
  cases other.get? name with
  | some input => rfl
  | none =>
    cases fallback with
    | some given => rfl
    | none => rw [Verdict.bare_under, Verdict.bare_under]; rfl

end Check

/-- The error of a request does not depend on the request that a field is missing in. -/
theorem errorOfIssues_bare (issues : List Issue) :
    errorOfIssues (issues.map Issue.bare) = errorOfIssues issues := by
  have seen : Issue.isAmountRange ∘ Issue.bare = Issue.isAmountRange :=
    funext Issue.isAmountRange_bare
  unfold errorOfIssues
  rw [List.find?_map, seen]
  cases found : issues.find? Issue.isAmountRange with
  | some issue =>
    have ranged := List.find?_some found
    rw [Option.map_some, Issue.bare_of_isAmountRange ranged]
  | none =>
    cases issues with
    | nil => rfl
    | cons first rest => exact first.error_bare

/-- A verdict is answered alike without the request that a field is missing in. -/
theorem answered_bare {α : Type} (event : String) (verdict : Verdict α) :
    verdict.bare.answered event = verdict.answered event := by
  cases verdict with
  | ok a => rfl
  | error issues =>
    unfold Verdict.bare Verdict.answered
    dsimp only [Except.mapError]
    rw [errorOfIssues_bare]

/-- Two requests are approved alike when their checks differ in no more than the request that
a field is missing in. -/
theorem approve_congr_of_bare {α : Type} {check : Fields → Verdict α} {event : String}
    {data other : Fields} (free : clashing data = false) (free' : clashing other = false)
    (same : (check data).bare = (check other).bare) :
    approve check event data = approve check event other := by
  rw [approve_of_free free, approve_of_free free', ← answered_bare, same, answered_bare]

/-! ## The names of an earning -/

/-- The names that make an earning. -/
def earningNames : List String := ["miner_id", "pool_id", "challenge_id", "amount"]

/-- An item without the names that make no earning. -/
def Fields.core (item : Fields) : Fields :=
  item.filter fun field => earningNames.contains field.1

namespace Fields

variable (item : Fields)

theorem get?_core (name : String) (own : name ∈ earningNames) :
    item.core.get? name = item.get? name := by
  unfold get? core
  rw [List.find?_filter]
  congr 2
  funext field
  by_cases same : field.1 = name
  · simp [same, own]
  · simp [same]

theorem has_core {name : String} (other : name ∉ earningNames) :
    item.core.has name = false := by
  refine List.any_eq_false.mpr fun field member same => other ?_
  rw [← beq_iff_eq.mp same]
  exact List.contains_iff_mem.mp (List.mem_filter.mp member).2

theorem has_filled (name : String) : item.filled.has name = item.has name := by
  rw [← isSome_get?, get?_filled, Option.isSome_map, isSome_get?]

/-- Filling in the amount and leaving out other names can be done in either order. -/
theorem filled_core : item.core.filled = item.filled.core := by
  unfold filled core
  rw [List.filter_map]
  congr 2
  funext field
  dsimp only [Function.comp]
  split <;> rfl

end Fields

theorem clashing_core (item : Fields) : clashing item.core = false := by
  rw [clashing, item.has_core (by decide), item.has_core (by decide)]
  rfl

theorem clashing_of_filled (item : Fields) : clashing item.filled = clashing item := by
  rw [clashing, item.has_filled, item.has_filled]
  rfl

/-- **The form of an earning passes over all other names**, those of the check of requests
among them. -/
theorem Draft.bare_check_core (item : Fields) :
    (Draft.check item.core).bare = (Draft.check item).bare := by
  have owners : (Owner.check item.core).bare = (Owner.check item).bare := by
    unfold Owner.check required
    simp only [Verdict.bare_map, Verdict.bare_both]
    rw [bare_field (item.get?_core "miner_id" (by decide)),
      bare_field (item.get?_core "pool_id" (by decide)),
      bare_field (item.get?_core "challenge_id" (by decide))]
  unfold Draft.check
  rw [Verdict.bare_map, Verdict.bare_map, Verdict.bare_both, Verdict.bare_both, owners,
    bare_field (item.get?_core "amount" (by decide))]

/-! ## Items that are read -/

/-- An item of a batch that is read: no item in front of it is refused. -/
def Fields.ReadIn (item : Fields) (items : List Fields) : Prop :=
  ∃ earlier later, items = earlier ++ item :: later ∧
    ∀ other ∈ earlier, ∃ draft, (admitItem (.ofFields other)).outcome = .ok draft

namespace Fields.ReadIn

variable {first item : Fields} {rest : List Fields}

theorem head (first : Fields) (rest : List Fields) : first.ReadIn (first :: rest) :=
  ⟨[], rest, rfl, List.forall_mem_nil _⟩

theorem tail (drawn : ∃ draft, (admitItem (.ofFields first)).outcome = .ok draft)
    (read : item.ReadIn rest) : item.ReadIn (first :: rest) := by
  obtain ⟨earlier, later, rfl, passed⟩ := read
  exact ⟨first :: earlier, later, rfl, List.forall_mem_cons.mpr ⟨drawn, passed⟩⟩

theorem eq_or_tail (read : item.ReadIn (first :: rest)) :
    item = first ∨
      (∃ draft, (admitItem (.ofFields first)).outcome = .ok draft) ∧ item.ReadIn rest := by
  obtain ⟨earlier, later, split, passed⟩ := read
  cases earlier with
  | nil => exact .inl (List.cons.inj split).1.symm
  | cons other earlier =>
    obtain ⟨rfl, behind⟩ := List.cons.inj split
    obtain ⟨drawn, passed⟩ := List.forall_mem_cons.mp passed
    exact .inr ⟨drawn, earlier, later, behind, passed⟩

end Fields.ReadIn

namespace Writing

variable {items : List Fields} {item : Fields}

/-- A dictionary is checked by its names, with a missing amount filled in. -/
theorem admitItem_ofFields (item : Fields) :
    admitItem (.ofFields item) =
      approve Draft.check "db_create_earnings_batch_invalid" item.filled := by
  show (Audited.ofExcept ((Binding.namesOf ((item.map fun field =>
      (Value.text field.1, field.2)).map fun entry =>
        if entry.1.same (.text "amount") then (entry.1, givenAmount entry.2) else entry)).mapError
          Failure.misuse) >>= approve Draft.check "db_create_earnings_batch_invalid") = _
  rw [Fields.entries_filled, namesOf_texts]
  rfl

/-- An item without names of the check is read as it would be without its other names. -/
theorem admitItem_core (free : clashing item = false) :
    admitItem (.ofFields item.core) = admitItem (.ofFields item) := by
  rw [admitItem_ofFields, admitItem_ofFields, Fields.filled_core]
  refine approve_congr_of_bare (clashing_core _) ?_ (Draft.bare_check_core item.filled)
  rw [clashing_of_filled, free]

/-- An item with a name of the check is a misuse of it. -/
theorem admitItem_of_clash (taken : clashing item = true) :
    ∃ name ∈ ["schema", "event"], item.has name = true ∧
      admitItem (.ofFields item) =
        Audited.fail (.misuse (.repeatedArgument checkSignature.callee name)) := by
  rw [← clashing_of_filled] at taken
  rcases checkSignature_bind_cases item.filled with
    ⟨free, -⟩ | ⟨-, name, own, there, failed⟩
  · rw [free] at taken
    cases taken
  · refine ⟨name, own, (item.has_filled name).symm.trans there, ?_⟩
    rw [admitItem_ofFields, approve, failed]

/-- An item that is read in passing leaves no word in the log. -/
theorem admitItem_of_ok {draft : Draft}
    (drawn : (admitItem (.ofFields item)).outcome = .ok draft) :
    admitItem (.ofFields item) = pure draft := by
  rw [admitItem_ofFields] at drawn ⊢
  exact approve_of_ok drawn

/-- Items of which none that is read has a name of the check are read as they would be
without their other names. -/
theorem admitItems_core (free : ∀ item : Fields, item.ReadIn items → clashing item = false) :
    admitItems ((items.map Fields.core).map .ofFields) = admitItems (items.map .ofFields) := by
  induction items with
  | nil => rfl
  | cons first rest ih =>
    rw [List.map_cons, List.map_cons, List.map_cons, admitItems, admitItems,
      admitItem_core (free first (.head first rest))]
    refine Audited.bind_congr fun draft drawn => ?_
    rw [ih fun item read => free item (.tail ⟨draft, drawn⟩ read)]

/-- Items of which one that is read has a name of the check are a misuse of it. -/
theorem admitItems_of_clash (read : item.ReadIn items) (taken : clashing item = true) :
    ∃ name ∈ ["schema", "event"], item.has name = true ∧
      admitItems (items.map .ofFields) =
        Audited.fail (.misuse (.repeatedArgument checkSignature.callee name)) := by
  induction items with
  | nil =>
    obtain ⟨earlier, later, split, -⟩ := read
    cases earlier <;> cases split
  | cons first rest ih =>
    rw [List.map_cons, admitItems]
    rcases read.eq_or_tail with rfl | ⟨⟨draft, drawn⟩, behind⟩
    · obtain ⟨name, own, there, failed⟩ := admitItem_of_clash taken
      exact ⟨name, own, there, by rw [failed]; rfl⟩
    · obtain ⟨name, own, there, failed⟩ := ih behind
      exact ⟨name, own, there, by rw [admitItem_of_ok drawn, failed]; rfl⟩

/-- Items without names of the check are no misuse. -/
theorem admitItems_fits (free : ∀ item ∈ items, clashing item = false)
    (misuse : Binding.Misuse) :
    (admitItems (items.map .ofFields)).outcome ≠ .error (.misuse misuse) := by
  induction items with
  | nil => nofun
  | cons first rest ih =>
    obtain ⟨here, behind⟩ := List.forall_mem_cons.mp free
    rw [List.map_cons, admitItems]
    have checked := outcome_approve_cases Draft.check "db_create_earnings_batch_invalid"
      first.filled
    rw [← admitItem_ofFields, clashing_of_filled, here] at checked
    rcases checked with ⟨taken, -⟩ | ⟨-, ⟨issues, -, failed⟩ | ⟨draft, -, drawn⟩⟩
    · cases taken
    · rw [Audited.outcome_bind_of_error failed]
      exact fun same => LedgerError.raised_ne_misuse misuse (Except.error.inj same)
    · rw [Audited.outcome_bind_of_ok drawn]
      cases later : (admitItems (rest.map .ofFields)).outcome with
      | ok drafts =>
        rw [Audited.outcome_bind_of_ok later]
        nofun
      | error failure =>
        rw [Audited.outcome_bind_of_error later, ← later]
        exact ih behind

/-- Storing drafts is no misuse. -/
theorem createDrafts_fits (env : Environment) (store : Store) (drafts : List Draft)
    (misuse : Binding.Misuse) :
    (createDrafts env store drafts).audited.outcome ≠ .error (.misuse misuse) := by
  unfold createDrafts
  split
  · nofun
  · split
    · next after fault _ =>
      rw [outcome_writeFault]
      unfold Fault.metWriting
      split <;> nofun
    · nofun

end Writing

/-! ## Batches -/

namespace Call

/-- The call for a batch of dictionaries. -/
def openAll (items : List Fields) : Call := .createBatch (.list (items.map .ofFields))

variable {items : List Fields} (env : Environment) (store : Store)

theorem run_openAll (items : List Fields) :
    (openAll items).run env store =
      writing .earnings (afterCheck store (admitItems (items.map .ofFields))
        (createDrafts env store)) := rfl

/-- A batch of items without names of the check is no misuse. -/
theorem run_openAll_fits (free : ∀ item ∈ items, clashing item = false)
    (misuse : Binding.Misuse) :
    ((openAll items).run env store).outcome ≠ .error (.misuse misuse) := by
  rw [run_openAll]
  cases checked : (admitItems (items.map .ofFields)).outcome with
  | error failure =>
    rw [writing_of_refused checked]
    intro misused
    obtain rfl := Except.error.inj misused
    exact admitItems_fits free misuse checked
  | ok drafts =>
    rw [(writing_of_admitted checked).1]
    exact fun misused =>
      createDrafts_fits env store drafts misuse (map_eq_error_iff.mp misused)

end Call

/-- **Names that make no earning are passed over**, in every store and environment, exactly
when no item that is read has one of the check's own: the batch then ends just as it does
without them, with the same answer or error, log and store.  With one of the check's own the
batch is a misuse of the check and leaves the store alone, which no batch without other names
ever is. -/
theorem other_names_passed_over_iff (env : Environment) (store : Store) (items : List Fields) :
    ((Call.openAll items).run env store = (Call.openAll (items.map Fields.core)).run env store ↔
        ∀ item : Fields, item.ReadIn items → clashing item = false) ∧
      ∀ item : Fields, item.ReadIn items → clashing item = true →
        (∃ name ∈ ["schema", "event"], item.has name = true ∧
          (Call.openAll items).run env store =
            ⟨.error (.misuse (.repeatedArgument "EarningsService._validate" name)), [], store⟩) ∧
        ∀ misuse, ((Call.openAll (items.map Fields.core)).run env store).outcome ≠
          .error (.misuse misuse) := by
  have cores : ∀ item ∈ items.map Fields.core, clashing item = false := by
    intro item member
    obtain ⟨whole, -, rfl⟩ := List.mem_map.mp member
    exact clashing_core whole
  have clash : ∀ item : Fields, item.ReadIn items → clashing item = true →
      ∃ name ∈ ["schema", "event"], item.has name = true ∧
        (Call.openAll items).run env store =
          ⟨.error (.misuse (.repeatedArgument "EarningsService._validate" name)), [], store⟩ := by
    intro item read taken
    obtain ⟨name, own, there, failed⟩ := admitItems_of_clash read taken
    refine ⟨name, own, there, ?_⟩
    rw [Call.run_openAll, failed]
    rfl
  have apart := Call.run_openAll_fits env store cores
  refine ⟨⟨fun same item read => ?_, fun free => ?_⟩, fun item read taken =>
    ⟨clash item read taken, apart⟩⟩
  · by_contra taken
    obtain ⟨name, -, -, misused⟩ := clash item read (Bool.not_eq_false _ ▸ taken)
    exact apart _ (congrArg Reply.outcome (same.symm.trans misused))
  · rw [Call.run_openAll, Call.run_openAll, admitItems_core free]

/-- An earning told with a note is opened as it is without; told with a `schema` it is not
opened at all, while an item behind a refused one may tell its `event`. -/
theorem note_is_passed_over_but_schema_is_not :
    let env : Environment := .usual ⟨0, by decide⟩
    let owner : Fields := [("miner_id", .int 1), ("pool_id", .int 1), ("challenge_id", .int 1)]
    let noted : List Fields := [owner ++ [("note", .text "b")]]
    let late : List Fields := [[("miner_id", .null)], owner ++ [("event", .int 1)]]
    let told : List Fields := [owner ++ [("schema", .int 1)]]
    (Call.openAll noted).run env (freshStore true) =
        (Call.openAll [owner]).run env (freshStore true) ∧
      (Call.openAll late).run env (freshStore true) =
        (Call.openAll [[("miner_id", .null)], owner]).run env (freshStore true) ∧
      ((Call.openAll told).run env (freshStore true)).outcome =
        .error (.misuse (.repeatedArgument "EarningsService._validate" "schema")) ∧
      ((Call.openAll [owner]).run env (freshStore true)).outcome = .ok (.earnings [
        Earning.ofDraft ⟨⟨1, by decide⟩, ⟨1, by decide⟩, ⟨1, by decide⟩, .nothing⟩ env.now 1]) := by
  intro env owner noted late told
  refine ⟨?_, ?_, ?_, rfl⟩
  · refine (other_names_passed_over_iff env (freshStore true) noted).1.mpr fun item read => ?_
    rcases read.eq_or_tail with rfl | ⟨-, earlier, later, split, -⟩
    · rfl
    · cases earlier <;> cases split
  · refine (other_names_passed_over_iff env (freshStore true) late).1.mpr fun item read => ?_
    rcases read.eq_or_tail with rfl | ⟨⟨draft, drawn⟩, -⟩
    · rfl
    · cases drawn
  · obtain ⟨⟨name, own, there, misused⟩, -⟩ :=
      (other_names_passed_over_iff env (freshStore true) told).2 _ (.head _ []) rfl
    rw [misused]
    rcases List.mem_cons.mp own with rfl | own
    · rfl
    · cases List.mem_singleton.mp own
      cases there

/-- Not every other name is passed over: an earning told with a `schema` is not opened on a
ledger without rows, although it is one when the name is left out. -/
theorem not_every_other_name_passed_over :
    ¬ ∀ (env : Environment) (trigger : Bool) (turns : List Turn) (items : List Fields),
      (∀ item ∈ items, (item.map Prod.fst).Nodup) →
      let whole := (Call.openAll items).run env (storeAfter (freshStore trigger) turns)
      let core := (Call.openAll (items.map Fields.core)).run env
        (storeAfter (freshStore trigger) turns)
      whole.outcome = core.outcome ∧ whole.store = core.store := by
  intro every
  have same := every (.usual ⟨0, by decide⟩) true []
    [[("miner_id", .int 1), ("pool_id", .int 1), ("challenge_id", .int 1), ("schema", .int 1)]]
    (List.forall_mem_singleton.mpr (by decide))
  cases same.1

end EarningsLedger
