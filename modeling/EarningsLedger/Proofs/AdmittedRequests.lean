import EarningsLedger.Ledger.Writing
import EarningsLedger.Proofs.Outcomes
import Mathlib.Data.List.Forall2

/-!
# What an admitted request said

A request that passes its check has told the ledger a few integers, and nothing has
been made up or altered on the way.  For each rule, each form and each way to hand a
request over, this module says what an admitted request held under the names that the
ledger reads: `admitDraft_ok` for the arguments of a new earning, `admitItem_ok` for
an item of a batch, `admitChange_ok` for a change.
-/

namespace EarningsLedger

open Check

/-! ## Rules -/

namespace Check

theorem strictInt_eq_ok_iff {input : Value} {n : Int} : strictInt input = .ok n ↔ input = .int n := by
  cases input <;> simp [strictInt, Verdict.fail]

theorem key_eq_ok_iff {input : Value} {k : Key} : key input = .ok k ↔ input = .int k.val := by
  unfold key
  constructor
  · intro passed
    split at passed
    · cases passed
    · next n read =>
      obtain rfl := strictInt_eq_ok_iff.mp read
      split at passed
      · cases passed
        rfl
      · split at passed <;> cases passed
  · rintro rfl
    simp [strictInt, k.inRange]

theorem amount_eq_ok_iff {input : Value} {a : Amount} :
    amount input = .ok a ↔ input = .int a.val := by
  unfold amount
  constructor
  · intro passed
    split at passed
    · cases passed
    · next n read =>
      obtain rfl := strictInt_eq_ok_iff.mp read
      split at passed
      · cases passed
        rfl
      · split at passed <;> cases passed
  · rintro rfl
    simp [strictInt, a.inRange]

/-- An integer under a rule and between two bounds. -/
theorem bounded_eq_ok_iff {rule : Rule Int} {low high n : Int} {input : Value} :
    bounded rule (some low) (some high) input = .ok n ↔ rule input = .ok n ∧ low ≤ n ∧ n ≤ high := by
  have bounds : ∀ m, inRange (some low) (some high) input m = .ok n ↔
      m = n ∧ low ≤ n ∧ n ≤ high := by
    intro m
    by_cases above : high < m
    · simp only [inRange, Option.filter, above, decide_true, if_true, Verdict.fail, reduceCtorEq,
        false_iff]
      omega
    · by_cases below : m < low
      · simp only [inRange, Option.filter, above, below, decide_true, decide_false, if_true,
          Bool.false_eq_true, if_false, Verdict.fail, reduceCtorEq, false_iff]
        omega
      · simp only [inRange, Option.filter, above, below, decide_false, Bool.false_eq_true,
          if_false, Except.ok.injEq]
        omega
  unfold bounded
  cases rule input with
  | error issues => simp
  | ok m => simp only [bounds, Except.ok.injEq]

theorem delta_eq_ok_iff {input : Value} {d : Int} :
    delta input = .ok d ↔ input = .int d ∧ -amountHigh ≤ d ∧ d ≤ amountHigh := by
  unfold delta
  rw [bounded_eq_ok_iff, strictInt_eq_ok_iff]

/-! ## Fields -/

variable {α : Type} {fields : Fields} {name : String} {rule : Rule α} {a : α}

theorem Verdict.under_eq_ok_iff {step : PathStep} {verdict : Verdict α} :
    verdict.under step = .ok a ↔ verdict = .ok a := by
  cases verdict <;> simp [Verdict.under, Except.mapError]

/-- A field that must be there passes exactly when its value does. -/
theorem required_eq_ok_iff :
    required fields name rule = .ok a ↔ ∃ input, fields.get? name = some input ∧ rule input = .ok a := by
  unfold required field
  cases fields.get? name with
  | none => simp [Verdict.under_eq_ok_iff, Verdict.fail]
  | some input => simp [Verdict.under_eq_ok_iff]

/-- A field with a default passes when its value does, or when it is left out. -/
theorem field_eq_ok_iff {given : α} :
    field fields name (some given) rule = .ok a ↔
      (fields.get? name = none ∧ a = given) ∨
        ∃ input, fields.get? name = some input ∧ rule input = .ok a := by
  unfold field
  cases fields.get? name with
  | none => simp [eq_comm]
  | some input => simp [Verdict.under_eq_ok_iff]

end Check

/-! ## Forms -/

/-- The integer under a name, where there is one; a missing number counts as zero. -/
def numberOf : Option Value → Int
  | some (.int n) => n
  | _ => 0

/-- What a draft was made from: three numbers, and an amount unless it was left out. -/
structure Draft.SaidBy (draft : Draft) (read : String → Option Value) : Prop where
  miner : read "miner_id" = some (.int draft.miner.val)
  pool : read "pool_id" = some (.int draft.pool.val)
  challenge : read "challenge_id" = some (.int draft.challenge.val)
  amount : numberOf (read "amount") = draft.amount.val

/-- A number of an owner passes exactly when it is there and is a key. -/
theorem required_key_eq_ok_iff {fields : Fields} {name : String} {k : Key} :
    required fields name key = .ok k ↔ fields.get? name = some (.int k.val) := by
  simp only [required_eq_ok_iff, key_eq_ok_iff, exists_eq_right]

/-- A draft passes exactly when each of its numbers does. -/
theorem Draft.check_eq_ok_iff {fields : Fields} {draft : Draft} :
    Draft.check fields = .ok draft ↔
      (fields.get? "miner_id" = some (.int draft.miner.val) ∧
        fields.get? "pool_id" = some (.int draft.pool.val) ∧
        fields.get? "challenge_id" = some (.int draft.challenge.val)) ∧
      field fields "amount" (some Amount.nothing) Check.amount = .ok draft.amount := by
  simp only [← required_key_eq_ok_iff]
  constructor
  · intro passed
    obtain ⟨⟨owner, amount⟩, parts, rfl⟩ := map_eq_ok_iff.mp passed
    obtain ⟨owned, paid⟩ := Verdict.both_eq_ok.mp parts
    obtain ⟨⟨miner, pool, challenge⟩, numbers, rfl⟩ := map_eq_ok_iff.mp owned
    obtain ⟨first, others⟩ := Verdict.both_eq_ok.mp numbers
    exact ⟨⟨first, Verdict.both_eq_ok.mp others⟩, paid⟩
  · intro parts
    obtain ⟨⟨first, others⟩, paid⟩ := parts
    have owned : Owner.check fields = .ok draft.owner := map_eq_ok_iff.mpr
      ⟨(draft.miner, draft.pool, draft.challenge),
        Verdict.both_eq_ok.mpr ⟨first, Verdict.both_eq_ok.mpr others⟩, rfl⟩
    exact map_eq_ok_iff.mpr
      ⟨(draft.owner, draft.amount), Verdict.both_eq_ok.mpr ⟨owned, paid⟩, rfl⟩

/-- An admitted draft is the one the fields told. -/
theorem Draft.check_ok {fields : Fields} {draft : Draft} (passed : Draft.check fields = .ok draft) :
    draft.SaidBy fields.get? := by
  obtain ⟨⟨miner, pool, challenge⟩, paid⟩ := Draft.check_eq_ok_iff.mp passed
  refine ⟨miner, pool, challenge, ?_⟩
  rcases field_eq_ok_iff.mp paid with ⟨absent, nothing⟩ | ⟨input, held, admitted⟩
  · rw [absent, nothing]
    rfl
  · rw [held, amount_eq_ok_iff.mp admitted]
    rfl

/-! ## Arguments by name -/

namespace Binding.Signature

/-- An operation that gathers no names hands all of them to its parameters, in order. -/
theorem given_of_foldlM {sig : Signature} (closed : sig.gathers = false) {named : Fields}
    {start bound : Bound} (done : named.foldlM sig.bindName start = .ok bound) :
    bound.given = start.given ++ named := by
  induction named generalizing start with
  | nil =>
    cases done
    simp
  | cons argument rest ih =>
    rw [List.foldlM_cons] at done
    cases first : sig.bindName start argument with
    | error misuse =>
      rw [first] at done
      cases done
    | ok next =>
      rw [first] at done
      have given : next.given = start.given ++ [argument] := by
        simp only [bindName, closed, Bool.false_eq_true, if_false] at first
        split at first
        · cases first
        · split at first
          · cases first
            rfl
          · cases first
      rw [ih done, given, List.append_assoc, List.singleton_append]

/-- A call fits exactly when every name finds its place, there are parameters for all
positions, and no parameter is left that needs an argument. -/
theorem bind_eq_ok_iff {sig : Signature} {positional : List Value} {named : Fields}
    {bound : Bound} :
    sig.bind positional named = .ok bound ↔
      named.foldlM sig.bindName ⟨(sig.parameters.map Parameter.name).zip positional, []⟩ =
          .ok bound ∧
        positional.length ≤ sig.parameters.length ∧
        ∀ p ∈ sig.parameters, p.optional = false → bound.given.has p.name = true := by
  dsimp only [Signature.bind]
  cases named.foldlM sig.bindName
      ⟨(sig.parameters.map Parameter.name).zip positional, []⟩ with
  | error misuse => simp [Bind.bind, Except.bind]
  | ok reached =>
    simp only [Bind.bind, Except.bind, List.length_map, Except.ok.injEq]
    by_cases many : sig.parameters.length < positional.length
    · simp only [if_pos many]
      constructor
      · intro fits
        cases fits
      · intro whole
        obtain ⟨_, few, _⟩ := whole
        omega
    · have few : positional.length ≤ sig.parameters.length := Nat.le_of_not_lt many
      by_cases full : ∀ p ∈ sig.parameters, p.optional = false → reached.given.has p.name = true
      · have filled : (sig.parameters.filter fun p =>
            !p.optional && !reached.given.has p.name) = [] := by
          simpa [List.filter_eq_nil_iff] using full
        simp only [if_neg many, filled, List.isEmpty_nil, if_true]
        constructor
        · intro fits
          cases fits
          exact ⟨rfl, few, full⟩
        · intro whole
          obtain ⟨rfl, _, _⟩ := whole
          rfl
      · have open? : (sig.parameters.filter fun p =>
            !p.optional && !reached.given.has p.name).isEmpty = false := by
          simpa [List.isEmpty_eq_false_iff, List.filter_eq_nil_iff] using full
        simp only [if_neg many, open?, Bool.false_eq_true, if_false]
        constructor
        · intro fits
          cases fits
        · intro whole
          obtain ⟨rfl, _, all⟩ := whole
          exact absurd all full

end Binding.Signature

/-- A value that is missing where none was told is a number only where that was told. -/
theorem getD_null_eq_int_iff {told : Option Value} {n : Int} :
    told.getD .null = .int n ↔ told = some (.int n) := by
  cases told <;> simp

/-- An amount that may be left out is zero wherever no number was told. -/
theorem numberOf_givenAmount (told : Option Value) :
    numberOf (some (Writing.givenAmount (told.getD .null))) = numberOf told := by
  cases told with
  | none => rfl
  | some value => cases value <;> rfl

/-! ## New earnings -/

namespace Writing

/-- The arguments of an admitted new earning told its draft. -/
theorem admitDraft_ok {arguments : Fields} {draft : Draft}
    (admitted : (admitDraft arguments).outcome = .ok draft) : draft.SaidBy arguments.get? := by
  obtain ⟨bound, fits, checked⟩ := Audited.outcome_bind_eq_ok_iff.mp admitted
  have fits := mapError_eq_ok_iff.mp fits
  have given : bound.given = arguments := by
    simpa using Binding.Signature.given_of_foldlM rfl (Binding.Signature.bind_eq_ok_iff.mp fits).1
  have said := Draft.check_ok (outcome_approve_eq_ok_iff.mp checked).2
  rw [given] at said
  have read : ∀ {name : String} {n : Int},
      some ((arguments.get? name).getD .null) = some (Value.int n) →
        arguments.get? name = some (.int n) :=
    fun told => getD_null_eq_int_iff.mp (Option.some.inj told)
  refine ⟨read said.miner, read said.pool, read said.challenge, ?_⟩
  rw [← numberOf_givenAmount]
  exact said.amount

end Writing

/-! ## Entries under texts -/

/-- The value that entries hold under a text. -/
def entryUnder (entries : List (Value × Value)) (name : String) : Option Value :=
  (entries.find? fun entry => entry.1.same (.text name)).map Prod.snd

/-- The value under a text in what an item of a batch stands for, if it stands for
entries at all. -/
def Value.entry? (item : Value) (name : String) : Option Value :=
  match Binding.entriesOf item with
  | .ok entries => entryUnder entries name
  | .error _ => none

theorem Value.same_text_iff {value : Value} {s : String} :
    value.same (.text s) = true ↔ value = .text s := by
  cases value <;> simp [Value.same, Value.same.sameWorth, Value.worth?, Value.isNull]

/-- Entries become names exactly when every key is a text, and then nothing changes. -/
theorem entries_of_namesOf {entries : List (Value × Value)} {named : Fields}
    (texts : Binding.namesOf entries = .ok named) :
    entries = named.map fun field => (.text field.1, field.2) := by
  induction entries generalizing named with
  | nil =>
    cases texts
    rfl
  | cons entry rest ih =>
    obtain ⟨key, value⟩ := entry
    unfold Binding.namesOf at texts
    cases key with
    | text name =>
      cases others : Binding.namesOf rest with
      | error misuse =>
        rw [others] at texts
        cases texts
      | ok names =>
        rw [others] at texts
        cases texts
        rw [ih others]
        rfl
    | _ => cases texts

/-- Names taken from entries stand for the values that the entries hold. -/
theorem get?_of_namesOf {entries : List (Value × Value)} {named : Fields}
    (texts : Binding.namesOf entries = .ok named) (name : String) :
    named.get? name = entryUnder entries name := by
  rw [entries_of_namesOf texts, entryUnder, List.find?_map, Fields.get?, Option.map_map]
  rfl

/-- Filling in a missing amount changes what stands under that name, and nothing else. -/
theorem entryUnder_filled (entries : List (Value × Value)) (name : String) :
    entryUnder (entries.map fun entry =>
        if entry.1.same (.text "amount") then (entry.1, Writing.givenAmount entry.2) else entry)
      name =
      (entryUnder entries name).map fun value =>
        if name = "amount" then Writing.givenAmount value else value := by
  have keeps : (fun entry : Value × Value => entry.1.same (.text name)) ∘
      (fun entry : Value × Value =>
        if entry.1.same (.text "amount") then (entry.1, Writing.givenAmount entry.2) else entry) =
      fun entry => entry.1.same (.text name) := by
    funext entry
    dsimp only [Function.comp]
    split <;> rfl
  simp only [entryUnder, List.find?_map, keeps, Option.map_map]
  cases found : entries.find? fun entry => entry.1.same (.text name) with
  | none => rfl
  | some entry =>
    have fits := List.find?_some found
    have key : entry.1 = .text name := Value.same_text_iff.mp fits
    have asks : entry.1.same (.text "amount") = true ↔ name = "amount" := by
      rw [key, Value.same_text_iff, Value.text.injEq]
    simp only [Option.map_some, Function.comp, asks]
    split <;> rfl

namespace Writing

/-! ## Items of a batch -/

/-- The entries of an admitted item told its draft; a draft tells itself. -/
theorem admitItem_ok {item : Value} {draft : Draft}
    (admitted : (admitItem item).outcome = .ok draft) : draft.SaidBy item.entry? := by
  unfold admitItem at admitted
  split at admitted
  · next told =>
    obtain rfl := Except.ok.inj admitted
    exact ⟨rfl, rfl, rfl, rfl⟩
  · obtain ⟨entries, held, admitted⟩ := Audited.outcome_bind_eq_ok_iff.mp admitted
    obtain ⟨named, texts, admitted⟩ := Audited.outcome_bind_eq_ok_iff.mp admitted
    have held := mapError_eq_ok_iff.mp held
    have texts := mapError_eq_ok_iff.mp texts
    have said := Draft.check_ok (outcome_approve_eq_ok_iff.mp admitted).2
    have read : ∀ name, named.get? name = (item.entry? name).map fun value =>
        if name = "amount" then givenAmount value else value := by
      intro name
      rw [get?_of_namesOf texts, entryUnder_filled, Value.entry?, held]
    have plain : ∀ name, name ≠ "amount" → named.get? name = item.entry? name := by
      intro name other
      simp [read, other]
    refine ⟨?_, ?_, ?_, ?_⟩
    · rw [← plain _ (by decide), said.miner]
    · rw [← plain _ (by decide), said.pool]
    · rw [← plain _ (by decide), said.challenge]
    · rw [← said.amount, read]
      cases item.entry? "amount" with
      | none => rfl
      | some value => cases value <;> rfl

/-- Admitted items told their drafts, one by one. -/
theorem admitItems_ok {items : List Value} {drafts : List Draft}
    (admitted : (admitItems items).outcome = .ok drafts) :
    List.Forall₂ (fun item draft => (admitItem item).outcome = .ok draft) items drafts := by
  induction items generalizing drafts with
  | nil =>
    cases admitted
    exact .nil
  | cons item rest ih =>
    obtain ⟨first, here, admitted⟩ := Audited.outcome_bind_eq_ok_iff.mp admitted
    obtain ⟨others, later, admitted⟩ := Audited.outcome_bind_eq_ok_iff.mp admitted
    obtain rfl := Except.ok.inj admitted
    exact .cons here (ih later)

theorem admitBatch_ok {batch : Value} {drafts : List Draft}
    (admitted : (admitBatch batch).outcome = .ok drafts) :
    ∃ items, Binding.items batch = .ok items ∧
      List.Forall₂ (fun item draft => (admitItem item).outcome = .ok draft) items drafts := by
  obtain ⟨items, held, admitted⟩ := Audited.outcome_bind_eq_ok_iff.mp admitted
  exact ⟨items, mapError_eq_ok_iff.mp held, admitItems_ok admitted⟩

/-! ## Changes -/

theorem admitChange_ok {α : Type} {id : Value} {check : Fields → Verdict α} {named : Fields}
    {event : String} {n : Int} {a : α}
    (admitted : (admitChange id check named event).outcome = .ok (n, a)) :
    id = .int n ∧ check named = .ok a := by
  obtain ⟨m, asked, admitted⟩ := Audited.outcome_bind_eq_ok_iff.mp admitted
  obtain ⟨b, checked, admitted⟩ := Audited.outcome_bind_eq_ok_iff.mp admitted
  obtain ⟨rfl, rfl⟩ := Prod.mk.inj (Except.ok.inj admitted)
  exact ⟨outcome_admitId_eq_ok_iff.mp asked, (outcome_approve_eq_ok_iff.mp checked).2⟩

/-- A change is admitted when its number passes. -/
theorem outcome_admitChange_of_ok {α : Type} {id : Int} {check : Fields → Verdict α}
    {named : Fields} {event : String} {a : α}
    (fits : ∃ bound, checkSignature.bind [.null, .null] named = .ok bound)
    (passed : check named = .ok a) :
    (admitChange (.int id) check named event).outcome = .ok (id, a) := by
  refine Audited.outcome_bind_eq_ok_iff.mpr ⟨id, rfl, ?_⟩
  exact Audited.outcome_bind_eq_ok_iff.mpr
    ⟨a, outcome_approve_eq_ok_iff.mpr ⟨fits, passed⟩, rfl⟩

theorem checkAmount_eq_ok_iff {amount : Value} {a : Amount} :
    checkAmount [("amount", amount)] = .ok a ↔ amount = .int a.val := by
  simp [checkAmount, required_eq_ok_iff, amount_eq_ok_iff, Fields.get?]

theorem checkDelta_eq_ok_iff {delta : Value} {d : Int} :
    checkDelta [("delta", delta)] = .ok d ↔
      delta = .int d ∧ -amountHigh ≤ d ∧ d ≤ amountHigh := by
  simp [checkDelta, required_eq_ok_iff, delta_eq_ok_iff, Fields.get?]

end Writing

end EarningsLedger
