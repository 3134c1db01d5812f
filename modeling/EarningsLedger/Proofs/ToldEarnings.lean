import EarningsLedger.Proofs.AdmittedFilters

/-!
# New earnings that are told alike

A new earning is told by the names of its numbers, in a call of its own or as an item of a
batch.  The two are read by different code: the one binds names to parameters and fills in
an amount that was left out, the other fills in an amount that was told to be missing and
leaves the rest to the form.  `Fields.TellsEarning` says what both can read, and
`Writing.outcome_admitItem_eq` that they read the same out of it: the same draft, or the
same error.  `Fields.drafted_eq_ok_iff` says which drafts are read out of which names.
-/

namespace EarningsLedger

open Check Writing

/-! ## Names that tell an earning -/

/-- Names that tell an earning: each comes once, the three of the owner are there, and
besides them at most an amount. -/
structure Fields.TellsEarning (item : Fields) : Prop where
  once : (item.map Prod.fst).Nodup
  known : ∀ field ∈ item, field.1 ∈ ["miner_id", "pool_id", "challenge_id", "amount"]
  miner : item.has "miner_id" = true
  pool : item.has "pool_id" = true
  challenge : item.has "challenge_id" = true

/-- A draft that names tell.  An amount that is left out or told to be missing is nothing. -/
structure Draft.ToldBy (draft : Draft) (item : Fields) : Prop where
  miner : item.get? "miner_id" = some (.int draft.miner.val)
  pool : item.get? "pool_id" = some (.int draft.pool.val)
  challenge : item.get? "challenge_id" = some (.int draft.challenge.val)
  amount : givenAmount ((item.get? "amount").getD .null) = .int draft.amount.val

/-- The data that the names of a new earning are checked as. -/
def Fields.asked (item : Fields) : Fields :=
  let given (name : String) := (item.get? name).getD .null
  [("miner_id", given "miner_id"), ("pool_id", given "pool_id"),
   ("challenge_id", given "challenge_id"), ("amount", givenAmount (given "amount"))]

/-- The draft that is read out of the names of a new earning, or the error. -/
def Fields.drafted (item : Fields) : Except Failure Draft :=
  (Draft.check item.asked).mapError fun issues => (errorOfIssues issues).raised

/-! ## The form of a draft -/

namespace Draft

/-- A draft is checked by four names, and an amount that is left out is checked as nothing. -/
theorem check_congr {fields other : Fields} {miner pool challenge amount : Value}
    (first : fields.get? "miner_id" = some miner) (first' : other.get? "miner_id" = some miner)
    (second : fields.get? "pool_id" = some pool) (second' : other.get? "pool_id" = some pool)
    (third : fields.get? "challenge_id" = some challenge)
    (third' : other.get? "challenge_id" = some challenge)
    (paid : fields.get? "amount" = some amount)
    (paid' : (other.get? "amount").getD (.int 0) = amount) :
    Draft.check fields = Draft.check other := by
  have amounts : field fields "amount" (some Amount.nothing) Check.amount =
      field other "amount" (some Amount.nothing) Check.amount := by
    unfold field
    rw [paid, ← paid']
    cases other.get? "amount" with
    | none => rfl
    | some value => rfl
  have owners : Owner.check fields = Owner.check other := by
    unfold Owner.check required field
    rw [first, first', second, second', third, third']
  rw [Draft.check, Draft.check, owners, amounts]

/-- The check passes exactly the draft that the names tell. -/
theorem check_asked_eq_ok_iff {item : Fields} {draft : Draft} :
    Draft.check item.asked = .ok draft ↔ draft.ToldBy item := by
  have asked : ∀ {name : String} {n : Int}, item.asked.get? name = some ((item.get? name).getD .null) →
      (item.asked.get? name = some (.int n) ↔ item.get? name = some (.int n)) := by
    intro name n held
    rw [held, Option.some.injEq, getD_null_eq_int_iff]
  have paid : field item.asked "amount" (some Amount.nothing) Check.amount = .ok draft.amount ↔
      givenAmount ((item.get? "amount").getD .null) = .int draft.amount.val :=
    Verdict.under_eq_ok_iff.trans amount_eq_ok_iff
  rw [check_eq_ok_iff, asked rfl, asked rfl, asked rfl, paid]
  constructor
  · intro parts
    obtain ⟨⟨miner, pool, challenge⟩, amount⟩ := parts
    exact ⟨miner, pool, challenge, amount⟩
  · intro told
    exact ⟨⟨told.miner, told.pool, told.challenge⟩, told.amount⟩

end Draft

/-- A draft is read out of exactly the names that tell it. -/
theorem Fields.drafted_eq_ok_iff {item : Fields} {draft : Draft} :
    item.drafted = .ok draft ↔ draft.ToldBy item :=
  mapError_eq_ok_iff.trans Draft.check_asked_eq_ok_iff

/-- Names out of which no draft is read tell none, and an error of the ledger is raised. -/
theorem Fields.drafted_eq_error {item : Fields} {failure : Failure}
    (failed : item.drafted = .error failure) :
    (¬ ∃ draft : Draft, draft.ToldBy item) ∧ ∃ error : LedgerError, failure = error.raised := by
  refine ⟨?_, ?_⟩
  · intro some
    obtain ⟨draft, told⟩ := some
    rw [Fields.drafted_eq_ok_iff.mpr told] at failed
    cases failed
  · unfold Fields.drafted at failed
    cases checked : Draft.check item.asked with
    | ok draft =>
      rw [checked] at failed
      cases failed
    | error issues =>
      rw [checked] at failed
      exact ⟨_, (Except.error.inj failed).symm⟩

/-! ## Names as arguments -/

namespace Binding.Signature

/-- Names that are all parameters, each given once, find their places in order. -/
theorem foldlM_bindName_of_fresh {sig : Signature} {named : Fields}
    (known : ∀ field ∈ named, (sig.parameters.any fun p => p.name == field.1) = true)
    (foreign : ∀ field ∈ named, (sig.receiver == some field.1) = false)
    (once : (named.map Prod.fst).Nodup) {start : Bound}
    (fresh : ∀ field ∈ named, start.given.has field.1 = false) :
    named.foldlM sig.bindName start = .ok ⟨start.given ++ named, start.extras⟩ := by
  induction named generalizing start with
  | nil => simp [pure, Except.pure]
  | cons first rest ih =>
    obtain ⟨alone, others⟩ := List.nodup_cons.mp once
    obtain ⟨here, known⟩ := List.forall_mem_cons.mp known
    obtain ⟨other, foreign⟩ := List.forall_mem_cons.mp foreign
    obtain ⟨new, fresh⟩ := List.forall_mem_cons.mp fresh
    have placed : sig.bindName start first = .ok ⟨start.given ++ [first], start.extras⟩ := by
      simp [bindName, other, new, here]
    have apart : ∀ field ∈ rest, Fields.has (start.given ++ [first]) field.1 = false := by
      intro field member
      have differs : first.1 ≠ field.1 := fun same =>
        alone (same ▸ List.mem_map_of_mem member)
      rw [Fields.has_append, fresh field member]
      simpa [Fields.has] using differs
    rw [List.foldlM_cons, placed]
    refine (ih known foreign others apart).trans ?_
    rw [List.append_assoc, List.singleton_append]

end Binding.Signature

namespace Writing

variable {item : Fields}

/-- Names that tell an earning fit the call for a new one, and are all that it is given. -/
theorem createSignature_bind (tells : item.TellsEarning) :
    createSignature.bind [] item = .ok ⟨item, []⟩ := by
  have named : ∀ field ∈ item, (createSignature.parameters.any fun p => p.name == field.1) = true ∧
      (createSignature.receiver == some field.1) = false := by
    intro field member
    have known := tells.known field member
    generalize field.1 = name at known ⊢
    simp only [List.mem_cons, List.not_mem_nil, or_false] at known
    rcases known with rfl | rfl | rfl | rfl <;> exact ⟨rfl, rfl⟩
  refine Binding.Signature.bind_eq_ok_iff.mpr ⟨?_, Nat.zero_le _, ?_⟩
  · exact Binding.Signature.foldlM_bindName_of_fresh (fun field member => (named field member).1)
      (fun field member => (named field member).2) tells.once fun _ _ => rfl
  · intro p member needed
    simp only [createSignature, List.mem_cons, List.not_mem_nil, or_false] at member
    rcases member with rfl | rfl | rfl | rfl
    · exact tells.miner
    · exact tells.pool
    · exact tells.challenge
    · cases needed

/-- What a call for a new earning makes of names that tell one. -/
theorem outcome_admitDraft (tells : item.TellsEarning) :
    (admitDraft item).outcome = item.drafted := by
  have fits : (Audited.ofExcept ((createSignature.bind [] item).mapError Failure.misuse)).outcome =
      .ok ⟨item, []⟩ := by
    rw [createSignature_bind tells]
    rfl
  exact (Audited.outcome_bind_of_ok fits).trans (outcome_approve_of_free rfl)

end Writing

/-! ## Names as an item -/

/-- Entries under texts are names. -/
theorem namesOf_texts (named : Fields) :
    Binding.namesOf (named.map fun field => (.text field.1, field.2)) = .ok named := by
  induction named with
  | nil => rfl
  | cons field rest ih =>
    rw [List.map_cons, Binding.namesOf, ih]
    rfl

namespace Fields

variable {item : Fields}

theorem exists_get?_of_has {name : String} (there : item.has name = true) :
    ∃ value, item.get? name = some value := by
  obtain ⟨field, member, same⟩ := List.any_eq_true.mp there
  cases found : item.find? fun field => field.1 == name with
  | none => exact absurd same (List.find?_eq_none.mp found field member)
  | some other => exact ⟨other.2, by rw [get?, found]; rfl⟩

/-- The names of an item with a missing amount filled in. -/
def filled (item : Fields) : Fields :=
  item.map fun field => if field.1 = "amount" then (field.1, givenAmount field.2) else field

/-- Filling in the entries of an item fills in its names. -/
theorem entries_filled (item : Fields) :
    ((item.map fun field => (Value.text field.1, field.2)).map fun entry =>
        if entry.1.same (.text "amount") then (entry.1, givenAmount entry.2) else entry) =
      item.filled.map fun field => (.text field.1, field.2) := by
  rw [filled, List.map_map, List.map_map]
  refine List.map_congr_left fun field _ => ?_
  simp only [Function.comp, Value.same_text_iff, Value.text.injEq]
  split <;> rfl

theorem get?_filled (item : Fields) (name : String) :
    item.filled.get? name = (item.get? name).map fun value =>
      if name = "amount" then givenAmount value else value := by
  rw [get?_of_namesOf (namesOf_texts item.filled), ← entries_filled, entryUnder_filled,
    ← get?_of_namesOf (namesOf_texts item)]

/-- Names that tell an earning are none of the check's own, filled in or not. -/
theorem clashing_filled (tells : item.TellsEarning) : clashing item.filled = false := by
  have names : ∀ field ∈ item.filled,
      field.1 ∈ ["miner_id", "pool_id", "challenge_id", "amount"] := by
    intro field member
    obtain ⟨old, there, rfl⟩ := List.mem_map.mp member
    split <;> exact tells.known old there
  have absent : ∀ name ∉ ["miner_id", "pool_id", "challenge_id", "amount"],
      item.filled.has name = false := by
    intro name other
    refine List.any_eq_false.mpr fun field member same => other ?_
    rw [← beq_iff_eq.mp same]
    exact names field member
  rw [clashing, absent "schema" (by decide), absent "event" (by decide)]
  rfl

/-- Filled in or asked for, the names of an earning make the same draft. -/
theorem check_filled (tells : item.TellsEarning) :
    Draft.check item.filled = Draft.check item.asked := by
  have kept : ∀ {name : String}, item.has name = true → name ≠ "amount" →
      item.filled.get? name = some ((item.get? name).getD .null) := by
    intro name there other
    obtain ⟨value, found⟩ := exists_get?_of_has there
    simp [get?_filled, found, other]
  have paid : (item.filled.get? "amount").getD (.int 0) =
      givenAmount ((item.get? "amount").getD .null) := by
    rw [get?_filled]
    cases item.get? "amount" <;> rfl
  exact (Draft.check_congr rfl (kept tells.miner (by decide)) rfl (kept tells.pool (by decide)) rfl
    (kept tells.challenge (by decide)) rfl paid).symm

end Fields

namespace Writing

variable {item : Fields}

/-- What a batch makes of an item that tells an earning. -/
theorem outcome_admitItem (tells : item.TellsEarning) :
    (admitItem (Value.ofFields item)).outcome = item.drafted := by
  have names : (Audited.ofExcept ((Binding.namesOf ((item.map fun field =>
      (Value.text field.1, field.2)).map fun entry =>
        if entry.1.same (.text "amount") then (entry.1, givenAmount entry.2) else entry)).mapError
          Failure.misuse)).outcome = .ok item.filled := by
    rw [Fields.entries_filled, namesOf_texts]
    rfl
  refine (Audited.outcome_bind_of_ok rfl).trans ((Audited.outcome_bind_of_ok names).trans ?_)
  rw [outcome_approve_of_free (Fields.clashing_filled tells), Fields.check_filled tells]
  rfl

/-- **An earning is read alike** out of a call of its own and out of an item of a batch. -/
theorem outcome_admitItem_eq (tells : item.TellsEarning) :
    (admitItem (Value.ofFields item)).outcome = (admitDraft item).outcome :=
  (outcome_admitItem tells).trans (outcome_admitDraft tells).symm

/-- Items that tell earnings are read one by one, up to the first that fails. -/
theorem outcome_admitItems {items : List Fields} (tell : ∀ item ∈ items, item.TellsEarning) :
    (admitItems (items.map Value.ofFields)).outcome = items.mapM Fields.drafted := by
  induction items with
  | nil => rfl
  | cons item rest ih =>
    obtain ⟨tells, tell⟩ := List.forall_mem_cons.mp tell
    have here := outcome_admitItem tells
    rw [List.mapM_cons, ← ih tell, ← here]
    cases first : (admitItem (Value.ofFields item)).outcome with
    | error failure => exact Audited.outcome_bind_of_error first
    | ok draft =>
      refine (Audited.outcome_bind_of_ok first).trans ?_
      cases later : (admitItems (rest.map Value.ofFields)).outcome with
      | error failure => exact Audited.outcome_bind_of_error later
      | ok drafts => exact Audited.outcome_bind_of_ok later

theorem outcome_admitBatch {items : List Fields} (tell : ∀ item ∈ items, item.TellsEarning) :
    (admitBatch (.list (items.map Value.ofFields))).outcome = items.mapM Fields.drafted :=
  (Audited.outcome_bind_of_ok rfl).trans (outcome_admitItems tell)

end Writing

end EarningsLedger
