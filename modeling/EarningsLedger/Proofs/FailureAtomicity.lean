import EarningsLedger.Proofs.Histories

/-!
# Failed calls leave no trace

A call that fails leaves the store exactly as it found it, the counter of identifiers
included: whether its request was rejected, the row was not there, a number fitted no
cell, the calendar ended, or a fault struck the session.  So nobody can tell from a
later call that the failed one was ever made; in particular the next new earning gets
the identifier it would have got anyway.

For batches the claim has a second half: a batch with a single item that it cannot take
does fail, however many good items stand before it.
-/

namespace EarningsLedger

open Storage Writing

/-- An item that no batch can take: it fails its check, or its amount fits no cell. -/
def Unfit (item : Value) : Prop :=
  ∀ draft, (admitItem item).outcome = .ok draft → storedHigh < draft.amount.val

/-- A batch with an unfit item fails. -/
theorem createBatch_fails_of_unfit {env : Environment} {store : Store} {batch item : Value}
    {items : List Value} (held : Binding.items batch = .ok items) (member : item ∈ items)
    (unfit : Unfit item) :
    ∃ failure, ((Call.createBatch batch).run env store).outcome = .error failure := by
  cases ended : ((Call.createBatch batch).run env store).outcome with
  | error failure => exact ⟨failure, rfl⟩
  | ok answer =>
    exfalso
    obtain ⟨earnings, created, -⟩ := map_eq_ok_iff.mp ended
    obtain ⟨drafts, admitted, created, -⟩ := afterCheck_of_ok created
    obtain ⟨_, same, pairs⟩ := admitBatch_ok admitted
    cases held.symm.trans same
    obtain ⟨draft, drawn, passed⟩ := exists_of_forall₂_left pairs member
    have large := unfit draft passed
    rcases createDrafts_of_ok created with ⟨rfl, -, -⟩ | ⟨_, _, -, -, -, stores, -⟩
    · cases drawn
    · have fits := stores.fits draft drawn
      omega

/-- **Failed calls leave no trace.**  In any environment, on any store, a call that fails
leaves the store as it was, and the next call that opens earnings gives the first of
them the identifier behind the largest of the table before the failure.  A batch with an
item that it cannot take fails, and so stores none of its items. -/
theorem failed_call_leaves_no_trace (env : Environment) (store : Store) (call : Call) :
    (∀ failure, (call.run env store).outcome = .error failure →
      (call.run env store).store = store ∧
      ∀ (before : Table) (laterEnv : Environment) (later : Call) (answer : Answer) (id : Int),
        store = some before →
        (later.run laterEnv (call.run env store).store).outcome = .ok answer →
        (later.assigned answer).head? = some id → id = before.highest + 1) ∧
    (∀ (batch item : Value) (items : List Value), call = .createBatch batch →
      Binding.items batch = .ok items → item ∈ items → Unfit item →
        (∃ failure, (call.run env store).outcome = .error failure) ∧
          (call.run env store).store = store) := by
  constructor
  · intro failure failed
    have kept := Call.store_of_error failed
    refine ⟨kept, ?_⟩
    rintro before laterEnv later answer id rfl done first
    rw [kept] at done
    obtain ⟨after, -, effect⟩ := Call.effect_of_ok done
    exact effect.head?_assigned first
  · rintro batch item items rfl held member unfit
    obtain ⟨failure, failed⟩ := createBatch_fails_of_unfit held member unfit
    exact ⟨⟨failure, failed⟩, Call.store_of_error failed⟩

/-- A batch whose second amount fits no cell, on a table that has handed out seven
identifiers: it fails, nothing is stored, and the next earning gets the eighth. -/
theorem large_amount_fails_batch :
    let env : Environment := .usual ⟨0, by decide⟩
    let cells : Cells := ⟨1, 1, 1, 500, "", ""⟩
    let table : Table := ⟨[⟨5, cells⟩], 7, false, List.pairwise_singleton _ _⟩
    let good : Value := .draft ⟨⟨1, by decide⟩, ⟨1, by decide⟩, ⟨1, by decide⟩, ⟨10, by decide⟩⟩
    let large : Value := .draft
      ⟨⟨2, by decide⟩, ⟨1, by decide⟩, ⟨1, by decide⟩, ⟨9223372036854775808, by decide⟩⟩
    let failed := (Call.createBatch (.list [good, large])).run env (some table)
    Unfit large ∧ (∃ failure, failed.outcome = .error failure) ∧ failed.store = some table ∧
      ∃ answer, ((Call.createBatch (.list [good])).run env failed.store).outcome = .ok answer ∧
        (Call.assigned (.createBatch (.list [good])) answer).head? = some 8 := by
  intro env cells table good large failed
  have unfit : Unfit large := by
    intro draft passed
    cases passed
    decide
  obtain ⟨⟨failure, fails⟩, kept⟩ :=
    (failed_call_leaves_no_trace env (some table) (.createBatch (.list [good, large]))).2
      (.list [good, large]) large [good, large] rfl rfl (by simp) unfit
  refine ⟨unfit, ⟨failure, fails⟩, kept, ?_⟩
  obtain ⟨answer, id, done, first⟩ : ∃ answer id,
      ((Call.createBatch (.list [good])).run env failed.store).outcome = .ok answer ∧
        (Call.assigned (.createBatch (.list [good])) answer).head? = some id := by
    rw [show failed.store = some table from kept]
    exact ⟨_, _, rfl, rfl⟩
  have next := ((failed_call_leaves_no_trace env (some table)
    (.createBatch (.list [good, large]))).1 failure fails).2 table env _ answer id rfl done first
  refine ⟨answer, done, ?_⟩
  rw [first, next]
  decide

end EarningsLedger
