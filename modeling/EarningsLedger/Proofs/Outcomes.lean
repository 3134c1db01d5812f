import EarningsLedger.Ledger.Reading
import Mathlib.Data.List.Forall2

/-!
# How audited operations end

An audited operation is a chain of steps, each of which may end it.  The first part of
this module takes outcomes apart, of one step, of steps on the items of a list, and of a
chain: it gives a result exactly when every step did.  The second part says for each of
the ledger's ways to end a call which failure it is, whatever was logged on the way.
-/

namespace EarningsLedger

open Storage

/-! ## Results and failures -/

section Except

variable {α β ε ε' : Type} {outcome : Except ε α}

theorem map_eq_ok_iff {f : α → β} {b : β} :
    outcome.map f = .ok b ↔ ∃ a, outcome = .ok a ∧ f a = b := by
  cases outcome <;> simp [Except.map]

theorem map_eq_error_iff {f : α → β} {failure : ε} :
    outcome.map f = .error failure ↔ outcome = .error failure := by
  cases outcome <;> simp [Except.map]

/-- A chain of steps gives a result exactly when each of them does. -/
theorem bind_eq_ok_iff {next : α → Except ε β} {b : β} :
    (outcome >>= next) = .ok b ↔ ∃ a, outcome = .ok a ∧ next a = .ok b := by
  cases outcome <;> simp [bind, Except.bind]

/-- Renaming failures keeps the results. -/
theorem mapError_eq_ok_iff {f : ε → ε'} {a : α} :
    outcome.mapError f = .ok a ↔ outcome = .ok a := by
  cases outcome <;> simp [Except.mapError]

/-- A step on every item of a list either succeeds on all of them, or fails as it does on
one of them. -/
theorem mapM_cases (f : α → Except ε β) (items : List α) :
    (∃ found, items.mapM f = .ok found ∧ List.Forall₂ (fun a b => f a = .ok b) items found) ∨
      ∃ a ∈ items, ∃ trouble, f a = .error trouble ∧ items.mapM f = .error trouble := by
  induction items with
  | nil => exact .inl ⟨[], rfl, .nil⟩
  | cons a rest ih =>
    rw [List.mapM_cons]
    cases here : f a with
    | error trouble => exact .inr ⟨a, List.mem_cons_self, trouble, here, rfl⟩
    | ok b =>
      rcases ih with ⟨found, done, pairs⟩ | ⟨other, member, trouble, fails, stopped⟩
      · exact .inl ⟨b :: found, by rw [done]; rfl, .cons here pairs⟩
      · exact .inr ⟨other, List.mem_cons_of_mem _ member, trouble, fails, by rw [stopped]; rfl⟩

/-- A step on every item of a list gives the results of all of them, item by item. -/
theorem mapM_eq_ok_iff {f : α → Except ε β} {items : List α} {found : List β} :
    items.mapM f = .ok found ↔ List.Forall₂ (fun a b => f a = .ok b) items found := by
  constructor
  · intro done
    rcases mapM_cases f items with ⟨other, same, pairs⟩ | ⟨_, -, _, -, failed⟩
    · obtain rfl := Except.ok.inj (same.symm.trans done)
      exact pairs
    · rw [failed] at done
      cases done
  · intro pairs
    induction pairs with
    | nil => rfl
    | cons here rest ih =>
      rw [List.mapM_cons, here, ih]
      rfl

/-- A step that fails on a list fails as it does on the first item that it fails on. -/
theorem mapM_error_cases {f : α → Except ε β} {items : List α} {trouble : ε}
    (failed : items.mapM f = .error trouble) :
    ∃ earlier item later, items = earlier ++ item :: later ∧
      (∀ other ∈ earlier, ∃ b, f other = .ok b) ∧ f item = .error trouble := by
  induction items with
  | nil => cases failed
  | cons first rest ih =>
    rw [List.mapM_cons] at failed
    cases here : f first with
    | error other =>
      rw [here] at failed
      cases failed
      exact ⟨[], first, rest, rfl, List.forall_mem_nil _, here⟩
    | ok b =>
      have behind : rest.mapM f = .error trouble := by
        rw [here] at failed
        cases later : rest.mapM f with
        | error other =>
          rw [later] at failed
          cases failed
          rfl
        | ok found =>
          rw [later] at failed
          cases failed
      obtain ⟨earlier, item, later, rfl, passed, fails⟩ := ih behind
      exact ⟨first :: earlier, item, later, rfl, List.forall_mem_cons.mpr ⟨⟨b, here⟩, passed⟩, fails⟩

end Except

/-- What is related to an item of one list by two lists that are related item by item. -/
theorem exists_of_forall₂_left {α β : Type} {R : α → β → Prop} {as : List α} {bs : List β}
    (pairs : List.Forall₂ R as bs) {a : α} (member : a ∈ as) : ∃ b ∈ bs, R a b := by
  induction pairs with
  | nil => cases member
  | cons here rest ih =>
    rcases List.mem_cons.mp member with rfl | later
    · exact ⟨_, List.mem_cons_self, here⟩
    · obtain ⟨b, drawn, related⟩ := ih later
      exact ⟨b, List.mem_cons_of_mem _ drawn, related⟩

theorem exists_of_forall₂_right {α β : Type} {R : α → β → Prop} {as : List α} {bs : List β}
    (pairs : List.Forall₂ R as bs) {b : β} (member : b ∈ bs) : ∃ a ∈ as, R a b :=
  exists_of_forall₂_left (R := flip R) pairs.flip member

/-! ## Chains -/

namespace Audited

variable {α β : Type}

@[simp] theorem outcome_pure (a : α) : (pure a : Audited α).outcome = .ok a := rfl

@[simp] theorem outcome_fail (failure : Failure) :
    (fail failure : Audited α).outcome = .error failure := rfl

@[simp] theorem outcome_ofExcept (outcome : Except Failure α) :
    (ofExcept outcome).outcome = outcome := rfl

/-- A chain gives a result exactly when its first step does, and then the rest does. -/
theorem outcome_bind_eq_ok_iff {first : Audited α} {next : α → Audited β} {b : β} :
    (first >>= next).outcome = .ok b ↔
      ∃ a, first.outcome = .ok a ∧ (next a).outcome = .ok b := by
  show (first.andThen next).outcome = .ok b ↔ _
  unfold andThen
  cases first.outcome with
  | error failure => simp
  | ok a => simp

/-- Behind a step that gave a result the rest decides. -/
theorem outcome_bind_of_ok {first : Audited α} {next : α → Audited β} {a : α}
    (done : first.outcome = .ok a) : (first >>= next).outcome = (next a).outcome := by
  show (first.andThen next).outcome = _
  simp only [andThen, done]

/-- A step that failed ends the chain. -/
theorem outcome_bind_of_error {first : Audited α} {next : α → Audited β} {failure : Failure}
    (failed : first.outcome = .error failure) :
    (first >>= next).outcome = .error failure := by
  show (first.andThen next).outcome = _
  simp only [andThen, failed]

/-- What follows a step depends on its outcome only. -/
theorem outcome_bind_congr {first other : Audited α} (same : first.outcome = other.outcome)
    (next : α → Audited β) : (first >>= next).outcome = (other >>= next).outcome := by
  show (first.andThen next).outcome = (other.andThen next).outcome
  unfold andThen
  rw [same]
  cases other.outcome <;> rfl

@[simp] theorem outcome_map (f : α → β) (audited : Audited α) :
    (f <$> audited).outcome = audited.outcome.map f := by
  show (audited.andThen _).outcome = _
  unfold andThen
  cases audited.outcome <;> rfl

end Audited

open Audited

variable {α : Type}

/-! ## Faults -/

/-- Where no fault is made to strike, none does. -/
theorem strike_of_calm {env : Environment} (calm : env.injection = none) (point : Point) :
    strike env.injection point = .ok () := by
  rw [calm]
  rfl

/-- What a fault becomes that is met while the store is read. -/
def Storage.Fault.metReading (fault : Fault) : Failure :=
  if fault.kind.isStorage then .ledger (fault.error .null) else .fault fault

/-- What a fault becomes that is met while an amount is written. -/
def Storage.Fault.metWriting (fault : Fault) (amount : Value) : Failure :=
  if fault.kind.isStorage || fault.kind == .overflow then .ledger (fault.error amount)
  else .fault fault

theorem outcome_readOutcome (outcome : Except Fault α) (message event : String)
    (context : Fields) :
    (readOutcome outcome message event context).outcome =
      outcome.mapError Fault.metReading := by
  cases outcome with
  | ok a => rfl
  | error fault =>
    simp only [readOutcome, Except.mapError, Fault.metReading]
    split <;> rfl

theorem outcome_writeFault (fault : Fault) (amount : Value) (message event : String)
    (context : Fields) :
    (writeFault fault amount message event context : Audited α).outcome =
      .error (fault.metWriting amount) := by
  simp only [writeFault, Fault.metWriting]
  split <;> rfl

/-! ## Errors that can be made -/

namespace LedgerError

variable {error other : LedgerError}

theorem raised_of_worded (worded : error.isWorded = true) : error.raised = .ledger error :=
  if_pos worded

theorem raised_of_unworded (unworded : error.isWorded = false) :
    error.raised = .fault .tooManyDigits := by
  rw [raised, unworded]
  rfl

theorem raised_eq_ledger_iff :
    error.raised = .ledger other ↔ error.isWorded = true ∧ error = other := by
  unfold raised
  split
  · next worded => simp [worded]
  · next unworded => simp [unworded]

theorem raised_ne_misuse (misuse : Binding.Misuse) : error.raised ≠ .misuse misuse := by
  unfold raised
  split <;> nofun

/-- An amount out of range and an identifier that is unknown are shown in the error. -/
theorem isWorded_overflow (n : Int) : (overflow (.int n) .null).isWorded = Text.isShort n := by
  rw [isWorded, Value.isSomething, Bool.false_or, Value.isShort]

theorem isWorded_notFound (n : Int) : (notFound (.int n)).isWorded = Text.isShort n := by
  rw [isWorded, Value.isShort]

theorem isWorded_of_invalid (invalid : error.kind = .invalid) : error.isWorded = true := by
  cases error with
  | invalid reason field => rfl
  | _ => cases invalid

end LedgerError

/-- A text can show every integer that is not much further from zero than an amount. -/
theorem isShort_of_small {n : Int} (small : n.natAbs < 100000000000000000000) :
    Text.isShort n = true := by
  have places : 20 ≤ Text.mostDigits := by decide
  exact Text.isShort_of_lt places small

/-- A text can show every identifier that callers may ask for. -/
theorem isShort_of_isKey {n : Int} (key : isKey n = true) : Text.isShort n = true := by
  obtain ⟨low, high⟩ := isKey_iff.mp key
  simp only [keyLow, keyHigh] at low high
  exact isShort_of_small (by omega)

/-- A text can show every difference of amounts. -/
theorem isShort_of_within {n : Int} (low : -amountHigh ≤ n) (high : n ≤ amountHigh) :
    Text.isShort n = true := by
  simp only [amountHigh] at low high
  exact isShort_of_small (by omega)

theorem LedgerError.raised_notFound_of_key {n : Int} (key : isKey n = true) :
    (notFound (.int n)).raised = .ledger (.notFound (.int n)) :=
  raised_of_worded ((isWorded_notFound n).trans (isShort_of_isKey key))

/-! ## Rejections -/

@[simp] theorem outcome_reject (message event : String) (field : Fields) (error : LedgerError) :
    (reject message event field error : Audited α).outcome = .error error.raised := by
  unfold reject LedgerError.raised
  split <;> rfl

@[simp] theorem outcome_notFound (event : String) (id : Value) :
    (Reading.notFound event id : Audited α).outcome = .error (LedgerError.notFound id).raised := rfl

/-- A check gives a result exactly when its names do not clash and its data pass. -/
theorem outcome_approve_eq_ok_iff {check : Fields → Check.Verdict α} {event : String}
    {data : Fields} {a : α} :
    (approve check event data).outcome = .ok a ↔
      (∃ bound, checkSignature.bind [.null, .null] data = .ok bound) ∧ check data = .ok a := by
  unfold approve
  cases checkSignature.bind [.null, .null] data with
  | error misuse => simp
  | ok bound => cases check data <;> simp

/-- A check that fails ends in a misuse of its names, or in the error of the issues. -/
theorem outcome_approve_eq_error_iff {check : Fields → Check.Verdict α} {event : String}
    {data : Fields} {failure : Failure} :
    (approve check event data).outcome = .error failure ↔
      (∃ misuse, checkSignature.bind [.null, .null] data = .error misuse ∧
        failure = .misuse misuse) ∨
      (∃ bound issues, checkSignature.bind [.null, .null] data = .ok bound ∧
        check data = .error issues ∧ failure = (errorOfIssues issues).raised) := by
  unfold approve
  cases checkSignature.bind [.null, .null] data with
  | error misuse => simp [eq_comm]
  | ok bound => cases check data <;> simp [eq_comm]

theorem outcome_admitId_eq_ok_iff {id : Value} {event : String} {n : Int} :
    (admitId id event).outcome = .ok n ↔ id = .int n := by
  cases id <;> simp [admitId]

end EarningsLedger
