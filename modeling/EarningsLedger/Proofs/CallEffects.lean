import EarningsLedger.Ledger.Call
import EarningsLedger.Proofs.SessionWrites

/-!
# What one call does to the store

Every question about a run of calls starts from the same fact, stated here once: a call
that fails leaves the store as it was (`Call.store_of_error`), and a call that gives an
answer reads, stores drafts or changes one amount (`Call.effect_of_ok`).  `Effect` lists
these cases with all that holds in them, so later proofs split on it and do not open the
operations again.
-/

namespace EarningsLedger.Call

open Calendar Storage Writing

/-- Whether a call only reads. -/
def reads : Call → Bool
  | create _ => false
  | createBatch _ => false
  | updateAmount _ _ => false
  | addAmount _ _ => false
  | _ => true

/-- The calls that ask for a change of an amount, with the identifier and the change
that they ask for. -/
inductive Asks : Call → Int → (Int → Int) → Prop
  | update (id : Int) (amount : Amount) :
    Asks (updateAmount (.int id) (.int amount.val)) id fun _ => amount.val
  | add (id delta : Int) (low : -amountHigh ≤ delta) (high : delta ≤ amountHigh) :
    Asks (addAmount (.int id) (.int delta)) id fun old => old + delta

/-- What an answered call made of a table, with its answer. -/
inductive Effect (env : Environment) (before : Table) : Call → Answer → Table → Prop
  | read {call : Call} {answer : Answer} (reads : call.reads = true) :
    Effect env before call answer before
  | created {arguments : Fields} {draft : Draft} {after : Table}
    (admitted : (admitDraft arguments).outcome = .ok draft)
    (stores : Stores env [draft] before after) :
    Effect env before (create arguments)
      (.earning (Earning.ofDraft draft env.now (before.highest + 1))) after
  | createdNone {batch : Value} (admitted : (admitBatch batch).outcome = .ok []) :
    Effect env before (createBatch batch) (.earnings []) before
  | createdMany {batch : Value} {drafts : List Draft} {after : Table}
    (admitted : (admitBatch batch).outcome = .ok drafts) (some : drafts ≠ [])
    (stores : Stores env drafts before after) :
    Effect env before (createBatch batch)
      (.earnings (earningsFrom env.now (before.highest + 1) drafts)) after
  | amended {call : Call} {id : Int} {compute : Int → Int} {made : Change} {after : Table}
    (asks : call.Asks id compute) (key : isKey id = true)
    (amends : Amends env id compute before made after) :
    Effect env before call (.earning made.earning) after

/-! ## Calls that write -/

variable {env : Environment} {store : Store}

/-- A call whose request is refused fails as the check of the request does. -/
theorem writing_of_refused {α β : Type} {answer : β → Answer} {checked : Audited α}
    {next : α → Written β} {failure : Failure} (refused : checked.outcome = .error failure) :
    (writing answer (afterCheck store checked next)).outcome = .error failure := by
  unfold writing afterCheck
  rw [refused]
  rfl

/-- A call whose request is admitted ends as the work behind the check does. -/
theorem writing_of_admitted {α β : Type} {answer : β → Answer} {checked : Audited α}
    {next : α → Written β} {a : α} (admitted : checked.outcome = .ok a) :
    (writing answer (afterCheck store checked next)).outcome =
        (next a).audited.outcome.map answer ∧
      (writing answer (afterCheck store checked next)).store = (next a).store := by
  unfold writing afterCheck
  rw [admitted]
  exact ⟨rfl, rfl⟩

/-- A change that was made for a call that asks for it is an effect of the call. -/
theorem effect_of_change {before : Table} {call : Call} {id : Int} {compute : Int → Int}
    {event message : String} {earning : Earning} (asks : call.Asks id compute)
    (done : (change env (some before) id compute event message).audited.outcome = .ok earning) :
    ∃ after, (change env (some before) id compute event message).store = some after ∧
      Effect env before call (.earning earning) after := by
  obtain ⟨key, _, after, made, same, stored, amends, rfl⟩ := change_of_ok done
  cases same
  exact ⟨after, stored, .amended asks key amends⟩

/-- **What an answered call does**: it leaves a table, and that in one of the ways that
`Effect` lists. -/
theorem effect_of_ok {before : Table} {call : Call} {answer : Answer}
    (done : (call.run env (some before)).outcome = .ok answer) :
    ∃ after, (call.run env (some before)).store = some after ∧
      Effect env before call answer after := by
  cases call with
  | create arguments =>
    obtain ⟨earning, created, rfl⟩ := map_eq_ok_iff.mp done
    obtain ⟨draft, admitted, created, left⟩ := afterCheck_of_ok created
    obtain ⟨_, after, same, stored, stores, rfl⟩ := createDraft_of_ok created
    cases same
    exact ⟨after, left.trans stored, .created admitted stores⟩
  | createBatch batch =>
    obtain ⟨earnings, created, rfl⟩ := map_eq_ok_iff.mp done
    obtain ⟨drafts, admitted, created, left⟩ := afterCheck_of_ok created
    rcases createDrafts_of_ok created with
      ⟨rfl, rfl, kept⟩ | ⟨_, after, some, same, stored, stores, rfl⟩
    · exact ⟨before, left.trans kept, .createdNone admitted⟩
    · cases same
      exact ⟨after, left.trans stored, .createdMany admitted some stores⟩
  | updateAmount id amount =>
    obtain ⟨earning, answered, rfl⟩ := map_eq_ok_iff.mp done
    obtain ⟨⟨n, a⟩, admitted, made, left⟩ := afterCheck_of_ok answered
    obtain ⟨rfl, checked⟩ := admitChange_ok admitted
    obtain rfl := checkAmount_eq_ok_iff.mp checked
    obtain ⟨after, stored, effect⟩ := effect_of_change (.update n a) made
    exact ⟨after, left.trans stored, effect⟩
  | addAmount id delta =>
    obtain ⟨earning, answered, rfl⟩ := map_eq_ok_iff.mp done
    obtain ⟨⟨n, d⟩, admitted, made, left⟩ := afterCheck_of_ok answered
    obtain ⟨rfl, checked⟩ := admitChange_ok admitted
    obtain ⟨rfl, low, high⟩ := checkDelta_eq_ok_iff.mp checked
    obtain ⟨after, stored, effect⟩ := effect_of_change (.add n d low high) made
    exact ⟨after, left.trans stored, effect⟩
  | _ => exact ⟨before, rfl, .read rfl⟩

/-- **A call that fails leaves the store as it was.** -/
theorem store_of_error {call : Call} {failure : Failure}
    (failed : (call.run env store).outcome = .error failure) :
    (call.run env store).store = store := by
  cases call with
  | create arguments =>
    rcases afterCheck_of_error (map_eq_error_iff.mp failed) with
      ⟨-, kept⟩ | ⟨draft, -, refused, left⟩
    · exact kept
    · exact left.trans (createDraft_store_of_error refused)
  | createBatch batch =>
    rcases afterCheck_of_error (map_eq_error_iff.mp failed) with
      ⟨-, kept⟩ | ⟨drafts, -, refused, left⟩
    · exact kept
    · exact left.trans (createDrafts_store_of_error refused)
  | updateAmount id amount =>
    rcases afterCheck_of_error (map_eq_error_iff.mp failed) with
      ⟨-, kept⟩ | ⟨found, -, refused, left⟩
    · exact kept
    · exact left.trans (change_store_of_error refused)
  | addAmount id delta =>
    rcases afterCheck_of_error (map_eq_error_iff.mp failed) with
      ⟨-, kept⟩ | ⟨found, -, refused, left⟩
    · exact kept
    · exact left.trans (change_store_of_error refused)
  | _ => rfl

end EarningsLedger.Call
