import EarningsLedger.Proofs.AdmittedFilters
import EarningsLedger.Request.Form

/-!
# Which fault a request is refused for

New earnings and changes of an amount are told by whole numbers, each under a name and in a
range of its own.  Any of them may be wrong at once, and each in several ways: left out, told
to be missing, of another sort, too small or too large.  `requests_classified` says what comes
of such a request.  It passes exactly when every number can be taken, and then holds just
these numbers; a sum of money that is out of its range goes before every other fault; and
otherwise the first number in the order of the form decides.

The numbers of a form are listed by `Form.numbers`, apart from the code that checks them.
`Faults` ties such a list to the issues that the check finds: one for each number that cannot
be taken, in order.
-/

namespace EarningsLedger

open Check

/-! ## Numbers of a form -/

/-- A whole number that a form asks for.  One that has a usual value may be left out. -/
structure NumberAsked where
  name : String
  low : Int
  high : Int
  usual : Option Int
  deriving DecidableEq, Repr

namespace NumberAsked

/-- The number of a miner, a pool or a challenge: a signed integer of 32 bits. -/
def key (name : String) : NumberAsked := ⟨name, keyLow, keyHigh, none⟩

/-- Whether a number is a sum of money, or the difference of two. -/
def isMoney (asked : NumberAsked) : Bool := asked.name == "amount" || asked.name == "delta"

/-- A number that can be taken from a request: an integer in range, or the usual value where
the request leaves it out. -/
inductive Takes (asked : NumberAsked) (data : Fields) (n : Int) : Prop
  | told (given : data.get? asked.name = some (.int n)) (low : asked.low ≤ n)
    (high : n ≤ asked.high) : Takes asked data n
  | leftOut (absent : data.get? asked.name = none) (usual : asked.usual = some n) :
    Takes asked data n

/-- A number that a request tells and that is out of range. -/
structure Exceeds (asked : NumberAsked) (data : Fields) (n : Int) : Prop where
  given : data.get? asked.name = some (.int n)
  outside : ¬ (asked.low ≤ n ∧ n ≤ asked.high)

/-- A number that a request does not tell, or tells to be missing. -/
def Untold (asked : NumberAsked) (data : Fields) : Prop :=
  data.get? asked.name = none ∨ data.get? asked.name = some .null

/-- The check of a number. -/
def verdict (asked : NumberAsked) (data : Fields) : Verdict Int :=
  field data asked.name asked.usual (bounded strictInt (some asked.low) (some asked.high))

/-- An issue that says what is wrong with a number. -/
structure Blamed (asked : NumberAsked) (data : Fields) (issue : Issue) : Prop where
  path : issue.path = [.name asked.name]
  range : issue.cause.isRange = true ↔ ∃ n, asked.Exceeds data n
  input : ∀ n, asked.Exceeds data n → issue.input = .int n
  untold : issue.cause = .missing ∨ issue.input.isNull = true ↔ asked.Untold data

variable {asked : NumberAsked} {data : Fields} {n : Int}

theorem inside_of_takes {m : Int} (takes : asked.Takes data m)
    (given : data.get? asked.name = some (.int n)) : asked.low ≤ n ∧ n ≤ asked.high := by
  cases takes with
  | told told low high =>
    obtain rfl := Value.int.inj (Option.some.inj (given.symm.trans told))
    exact ⟨low, high⟩
  | leftOut absent usual => cases given.symm.trans absent

theorem not_takes_of_exceeds (exceeds : asked.Exceeds data n) : ¬ ∃ m, asked.Takes data m := by
  rintro ⟨m, takes⟩
  exact exceeds.outside (inside_of_takes takes exceeds.given)

end NumberAsked

namespace Form

/-- The numbers that the forms of new earnings and of changes ask for, in order. -/
def numbers : Form → List NumberAsked
  | draft => [.key "miner_id", .key "pool_id", .key "challenge_id",
    ⟨"amount", 0, amountHigh, some 0⟩]
  | newAmount => [⟨"amount", 0, amountHigh, none⟩]
  | change => [⟨"delta", -amountHigh, amountHigh, none⟩]
  | _ => []

/-- A sum of money that can be taken is no further from zero than any amount. -/
theorem money_within (form : Form) : ∀ a ∈ form.numbers, a.isMoney = true →
    -amountHigh ≤ a.low ∧ a.high ≤ amountHigh := by
  cases form <;> decide

/-- A text can show every sum of money that a request tells. -/
def TellsShort (form : Form) (data : Fields) : Prop :=
  ∀ asked ∈ form.numbers, asked.isMoney = true → ∀ n, data.get? asked.name = some (.int n) →
    Text.isShort n = true

/-- No form asks for two sums of money. -/
theorem money_unique (form : Form) : ∀ a ∈ form.numbers, a.isMoney = true →
    ∀ b ∈ form.numbers, b.isMoney = true → a = b := by
  cases form <;> decide

end Form

/-! ## The check of a number -/

namespace Check

/-- An integer is within its bounds, or is refused over one of them. -/
theorem inRange_cases (low high : Int) (input : Value) (n : Int) :
    ((low ≤ n ∧ n ≤ high) ∧ inRange (some low) (some high) input n = .ok n) ∨
      ¬ (low ≤ n ∧ n ≤ high) ∧ ∃ cause : Cause, cause.isRange = true ∧ cause ≠ .missing ∧
        inRange (some low) (some high) input n = .fail cause input := by
  by_cases above : high < n
  · refine .inr ⟨by omega, .above high, rfl, by simp, ?_⟩
    simp [inRange, Option.filter, above]
  · by_cases below : n < low
    · refine .inr ⟨by omega, .below low, rfl, by simp, ?_⟩
      simp [inRange, Option.filter, above, below]
    · refine .inl ⟨by omega, ?_⟩
      simp [inRange, Option.filter, above, below]

theorem strictInt_of_other {input : Value} (other : ∀ n, input ≠ .int n) :
    strictInt input = .fail .notInteger input := by
  cases input with
  | int n => exact absurd rfl (other n)
  | _ => rfl

end Check

namespace NumberAsked

variable {asked : NumberAsked} {data : Fields} {n : Int}

theorem verdict_of_given {input : Value} (given : data.get? asked.name = some input) :
    asked.verdict data =
      (bounded strictInt (some asked.low) (some asked.high) input).under (.name asked.name) := by
  unfold verdict field
  rw [given]

theorem verdict_of_takes (takes : asked.Takes data n) : asked.verdict data = .ok n := by
  cases takes with
  | told given low high =>
    rw [verdict_of_given given, bounded_eq_ok_iff.mpr ⟨rfl, low, high⟩]
    rfl
  | leftOut absent usual =>
    unfold verdict field
    rw [absent, usual]

theorem verdict_of_exceeds (exceeds : asked.Exceeds data n) :
    ∃ issue, asked.Blamed data issue ∧ asked.verdict data = .error [issue] := by
  obtain ⟨given, outside⟩ := exceeds
  rw [verdict_of_given given]
  rcases inRange_cases asked.low asked.high (.int n) n with
    ⟨inside, -⟩ | ⟨-, cause, range, present, refused⟩
  · exact absurd inside outside
  · refine ⟨⟨[.name asked.name], cause, .int n⟩, ?_, ?_⟩
    · refine ⟨rfl, iff_of_true range ⟨n, given, outside⟩, ?_, iff_of_false ?_ ?_⟩
      · exact fun m other => Option.some.inj (given.symm.trans other.given)
      · exact fun untold => untold.elim present nofun
      · rintro (absent | null)
        · cases given.symm.trans absent
        · cases given.symm.trans null
    · show Verdict.under (.name asked.name) (inRange _ _ _ n) = _
      rw [refused]
      rfl

theorem verdict_of_absent (absent : data.get? asked.name = none) (needed : asked.usual = none) :
    ∃ issue, asked.Blamed data issue ∧ asked.verdict data = .error [issue] := by
  have told : ∀ n, ¬ asked.Exceeds data n := fun n exceeds => by
    cases exceeds.given.symm.trans absent
  refine ⟨⟨[.name asked.name], .missing, .ofFields data⟩, ?_, ?_⟩
  · exact ⟨rfl, iff_of_false nofun fun ⟨n, exceeds⟩ => told n exceeds,
      fun n exceeds => absurd exceeds (told n), iff_of_true (.inl rfl) (.inl absent)⟩
  · unfold verdict field
    rw [absent, needed]
    rfl

theorem verdict_of_other {input : Value} (given : data.get? asked.name = some input)
    (other : ∀ n, input ≠ .int n) :
    ∃ issue, asked.Blamed data issue ∧ asked.verdict data = .error [issue] := by
  have told : ∀ n, ¬ asked.Exceeds data n :=
    fun n exceeds => other n (Option.some.inj (given.symm.trans exceeds.given))
  refine ⟨⟨[.name asked.name], .notInteger, input⟩, ?_, ?_⟩
  · refine ⟨rfl, iff_of_false nofun fun ⟨n, exceeds⟩ => told n exceeds,
      fun n exceeds => absurd exceeds (told n), ?_⟩
    unfold Untold
    rw [given]
    cases input <;> simp [Value.isNull]
  · rw [verdict_of_given given]
    unfold bounded
    rw [strictInt_of_other other]
    rfl

/-- **What the check of a number comes to**: the number, when it can be taken, and else one
issue. -/
theorem verdict_cases (asked : NumberAsked) (data : Fields) :
    (∃ n, asked.Takes data n ∧ asked.verdict data = .ok n) ∨
      ∃ issue, asked.Blamed data issue ∧ asked.verdict data = .error [issue] := by
  cases held : data.get? asked.name with
  | none =>
    cases usual : asked.usual with
    | none => exact .inr (verdict_of_absent held usual)
    | some n =>
      have takes : asked.Takes data n := .leftOut held usual
      exact .inl ⟨n, takes, verdict_of_takes takes⟩
  | some input =>
    by_cases whole : ∃ n, input = .int n
    · obtain ⟨n, rfl⟩ := whole
      by_cases inside : asked.low ≤ n ∧ n ≤ asked.high
      · have takes : asked.Takes data n := .told held inside.1 inside.2
        exact .inl ⟨n, takes, verdict_of_takes takes⟩
      · exact .inr (verdict_of_exceeds ⟨held, inside⟩)
    · exact .inr (verdict_of_other held fun n same => whole ⟨n, same⟩)

end NumberAsked

/-! ## The checks of many numbers -/

/-- The issues of a request with the numbers of a list, in their order: one for each number
that cannot be taken. -/
inductive Faults (data : Fields) : List NumberAsked → List Issue → Prop
  | nil : Faults data [] []
  | takes {asked : NumberAsked} {n : Int} {numbers : List NumberAsked} {issues : List Issue}
    (taken : asked.Takes data n) (rest : Faults data numbers issues) :
    Faults data (asked :: numbers) issues
  | blames {asked : NumberAsked} {numbers : List NumberAsked} {issue : Issue}
    {issues : List Issue} (refused : ¬ ∃ n, asked.Takes data n) (blamed : asked.Blamed data issue)
    (rest : Faults data numbers issues) : Faults data (asked :: numbers) (issue :: issues)

namespace Faults

variable {data : Fields} {numbers : List NumberAsked} {issues : List Issue}

theorem of_taken {values : List Int}
    (taken : List.Forall₂ (fun asked n => asked.Takes data n) numbers values) :
    Faults data numbers [] := by
  induction taken with
  | nil => exact .nil
  | cons here rest ih => exact .takes here ih

/-- **What the checks of many numbers come to**: all of them, or the issues of those that
cannot be taken. -/
theorem of_all (data : Fields) (numbers : List NumberAsked) :
    (∃ values, List.Forall₂ (fun asked n => asked.Takes data n) numbers values ∧
      Verdict.all (numbers.map fun asked => asked.verdict data) = .ok values) ∨
    ∃ issue issues, Faults data numbers (issue :: issues) ∧
      Verdict.all (numbers.map fun asked => asked.verdict data) = .error (issue :: issues) := by
  induction numbers with
  | nil => exact .inl ⟨[], .nil, rfl⟩
  | cons asked numbers ih =>
    rw [List.map_cons, Verdict.all]
    rcases asked.verdict_cases data with ⟨n, takes, passed⟩ | ⟨issue, blamed, failed⟩
    · rw [passed]
      rcases ih with ⟨values, taken, all⟩ | ⟨issue, issues, faults, all⟩
      · rw [all]
        exact .inl ⟨n :: values, .cons takes taken, rfl⟩
      · rw [all]
        exact .inr ⟨issue, issues, .takes takes faults, rfl⟩
    · have refused : ¬ ∃ n, asked.Takes data n := by
        rintro ⟨n, takes⟩
        cases (NumberAsked.verdict_of_takes takes).symm.trans failed
      rw [failed]
      rcases ih with ⟨values, taken, all⟩ | ⟨other, issues, faults, all⟩
      · rw [all]
        exact .inr ⟨issue, [], .blames refused blamed (of_taken taken), rfl⟩
      · rw [all]
        exact .inr ⟨issue, other :: issues, .blames refused blamed faults, rfl⟩

/-- An issue is about a number. -/
theorem blamed_of_mem (faults : Faults data numbers issues) {issue : Issue}
    (member : issue ∈ issues) : ∃ asked ∈ numbers, asked.Blamed data issue := by
  induction faults with
  | nil => cases member
  | takes taken rest ih =>
    obtain ⟨asked, there, blamed⟩ := ih member
    exact ⟨asked, List.mem_cons_of_mem _ there, blamed⟩
  | blames refused blamed rest ih =>
    rcases List.mem_cons.mp member with rfl | later
    · exact ⟨_, List.mem_cons_self, blamed⟩
    · obtain ⟨asked, there, blamed⟩ := ih later
      exact ⟨asked, List.mem_cons_of_mem _ there, blamed⟩

/-- A number that cannot be taken has its issue. -/
theorem exists_blamed (faults : Faults data numbers issues) {asked : NumberAsked}
    (member : asked ∈ numbers) (refused : ¬ ∃ n, asked.Takes data n) :
    ∃ issue ∈ issues, asked.Blamed data issue := by
  induction faults with
  | nil => cases member
  | takes taken rest ih =>
    rcases List.mem_cons.mp member with rfl | later
    · exact absurd ⟨_, taken⟩ refused
    · exact ih later
  | blames refused blamed rest ih =>
    rcases List.mem_cons.mp member with rfl | later
    · exact ⟨_, List.mem_cons_self, blamed⟩
    · obtain ⟨issue, there, blamed⟩ := ih later
      exact ⟨issue, List.mem_cons_of_mem _ there, blamed⟩

/-- The first number that cannot be taken has the first issue. -/
theorem head_of_first {earlier later : List NumberAsked} {asked : NumberAsked}
    (faults : Faults data (earlier ++ asked :: later) issues)
    (taken : ∀ other ∈ earlier, ∃ n, other.Takes data n) (refused : ¬ ∃ n, asked.Takes data n) :
    ∃ issue rest, issues = issue :: rest ∧ asked.Blamed data issue := by
  induction earlier generalizing issues with
  | nil =>
    cases faults with
    | takes taken rest => exact absurd ⟨_, taken⟩ refused
    | blames refused blamed rest => exact ⟨_, _, rfl, blamed⟩
  | cons first earlier ih =>
    obtain ⟨here, taken⟩ := List.forall_mem_cons.mp taken
    cases faults with
    | takes _ rest => exact ih rest taken
    | blames refused' _ _ => exact absurd here refused'

end Faults

/-! ## The fault that decides -/

/-- What is wrong with a field never reads as if it were missing. -/
theorem Reason.message_badField_ne (field : String) (cause : Cause) :
    (badField field cause).message ≠ field ++ " must not be null" := by
  intro same
  have chars : (field ++ ": " ++ cause.message).toList =
      (field ++ " must not be null").toList := congrArg String.toList same
  rw [String.toList_append, String.toList_append, String.toList_append, List.append_assoc] at chars
  -- the two sentences part behind the name
  have behind := List.append_cancel_left chars
  have left : ": ".toList = [':', ' '] := rfl
  have right : " must not be null".toList = ' ' :: "must not be null".toList := rfl
  rw [left, right] at behind
  exact absurd (List.cons.inj behind).1 (by decide)

namespace NumberAsked.Blamed

variable {asked : NumberAsked} {data : Fields} {issue : Issue}

/-- An issue is about a sum out of range exactly when its number is one. -/
theorem isAmountRange_iff (blamed : asked.Blamed data issue) :
    issue.isAmountRange = true ↔ asked.isMoney = true ∧ ∃ n, asked.Exceeds data n := by
  have named : (issue.path.head? == some (.name "amount") ||
      issue.path.head? == some (.name "delta")) = asked.isMoney := by
    have step : ∀ name, ((some (PathStep.name asked.name)) == some (.name name)) =
        (asked.name == name) := by
      intro name
      rw [Bool.eq_iff_iff]
      simp
    rw [blamed.path]
    exact congrArg₂ or (step "amount") (step "delta")
  rw [Issue.isAmountRange, named, Bool.and_eq_true, blamed.range]
  exact and_comm

/-- **The error of an issue on its own** names the number, and says that it must not be
missing exactly when the request does not tell it. -/
theorem error (blamed : asked.Blamed data issue) :
    issue.error.kind = .invalid ∧ issue.error.field? = some (.text asked.name) ∧
      (issue.error.message = asked.name ++ " must not be null" ↔ asked.Untold data) := by
  have named : fieldOf issue.path = some asked.name := by
    rw [blamed.path]
    rfl
  unfold Issue.error
  rw [named]
  by_cases untold : asked.Untold data
  · dsimp only
    rw [if_pos (blamed.untold.mpr untold)]
    exact ⟨rfl, rfl, iff_of_true rfl untold⟩
  · dsimp only
    rw [if_neg (mt blamed.untold.mp untold)]
    exact ⟨rfl, rfl, iff_of_false (Reason.message_badField_ne _ _) untold⟩

end NumberAsked.Blamed

/-- **A sum out of its range goes before every other fault.** -/
theorem Faults.error_of_exceeds {data : Fields} {numbers : List NumberAsked} {issues : List Issue}
    (faults : Faults data numbers issues)
    (unique : ∀ a ∈ numbers, a.isMoney = true → ∀ b ∈ numbers, b.isMoney = true → a = b)
    {asked : NumberAsked} (member : asked ∈ numbers) (money : asked.isMoney = true) {n : Int}
    (exceeds : asked.Exceeds data n) : errorOfIssues issues = .overflow (.int n) .null := by
  obtain ⟨issue, there, blamed⟩ :=
    faults.exists_blamed member (NumberAsked.not_takes_of_exceeds exceeds)
  have ranged := blamed.isAmountRange_iff.mpr ⟨money, n, exceeds⟩
  unfold errorOfIssues
  cases found : issues.find? Issue.isAmountRange with
  | none => exact absurd ranged (List.find?_eq_none.mp found issue there)
  | some other =>
    -- whichever issue is found, it is about the only sum that the form asks for
    obtain ⟨b, listed, blamed'⟩ := faults.blamed_of_mem (List.mem_of_find?_eq_some found)
    obtain ⟨money', -⟩ := blamed'.isAmountRange_iff.mp (List.find?_some found)
    obtain rfl := unique asked member money b listed money'
    show LedgerError.overflow other.input .null = _
    rw [blamed'.input n exceeds]

/-- **Where no sum is out of its range, the first number that cannot be taken decides.** -/
theorem Faults.error_of_first {data : Fields} {earlier later : List NumberAsked}
    {asked : NumberAsked} {issues : List Issue}
    (faults : Faults data (earlier ++ asked :: later) issues)
    (inside : ∀ other ∈ earlier ++ asked :: later, other.isMoney = true →
      ¬ ∃ n, other.Exceeds data n)
    (taken : ∀ other ∈ earlier, ∃ n, other.Takes data n) (refused : ¬ ∃ n, asked.Takes data n) :
    ∃ issue, asked.Blamed data issue ∧ errorOfIssues issues = issue.error := by
  obtain ⟨issue, rest, rfl, blamed⟩ := faults.head_of_first taken refused
  have none : (issue :: rest).find? Issue.isAmountRange = none := by
    refine List.find?_eq_none.mpr fun other there ranged => ?_
    obtain ⟨b, listed, blamed'⟩ := faults.blamed_of_mem there
    obtain ⟨money, exceeds⟩ := blamed'.isAmountRange_iff.mp ranged
    exact inside b listed money exceeds
  refine ⟨issue, blamed, ?_⟩
  unfold errorOfIssues
  rw [none]

/-! ## Forms as lists of numbers -/

namespace Check

theorem Verdict.map_under {α β : Type} (f : α → β) (step : PathStep) (verdict : Verdict α) :
    (Verdict.under step verdict).map f = Verdict.under step (verdict.map f) := by
  cases verdict <;> rfl

/-- What a field comes to can be turned into something else in its rule. -/
theorem map_field {α β : Type} (f : α → β) (data : Fields) (name : String) (given : Option α)
    {rule : Rule α} {rule' : Rule β} (rules : ∀ input, (rule input).map f = rule' input) :
    (field data name given rule).map f = field data name (given.map f) rule' := by
  unfold field
  cases data.get? name with
  | some input => exact (Verdict.map_under f _ _).trans (congrArg _ (rules input))
  | none => cases given <;> rfl

/-- Which bound an integer is refused over does not depend on which is looked at first. -/
theorem inRange_eq {low high : Int} (proper : low ≤ high) (input : Value) (n : Int) :
    inRange (some low) (some high) input n =
      if low ≤ n ∧ n ≤ high then .ok n
      else if n < low then .fail (.below low) input else .fail (.above high) input := by
  by_cases above : high < n
  · have inside : ¬ (low ≤ n ∧ n ≤ high) := by omega
    have below : ¬ n < low := by omega
    simp [inRange, Option.filter, above, inside, below]
  · by_cases below : n < low
    · have inside : ¬ (low ≤ n ∧ n ≤ high) := by omega
      simp [inRange, Option.filter, above, below, inside]
    · have inside : low ≤ n ∧ n ≤ high := by omega
      simp [inRange, Option.filter, above, below, inside]

theorem map_key (input : Value) :
    (key input).map Key.val = bounded strictInt (some keyLow) (some keyHigh) input := by
  unfold key bounded
  cases strictInt input with
  | error issues => rfl
  | ok n =>
    dsimp only
    rw [inRange_eq (by decide)]
    by_cases inside : isKey n = true
    · rw [dif_pos inside, if_pos (isKey_iff.mp inside)]
      rfl
    · rw [dif_neg inside, if_neg (mt isKey_iff.mpr inside)]
      split <;> rfl

theorem map_amount (input : Value) :
    (amount input).map Amount.val = bounded strictInt (some 0) (some amountHigh) input := by
  unfold amount bounded
  cases strictInt input with
  | error issues => rfl
  | ok n =>
    dsimp only
    rw [inRange_eq (by decide)]
    by_cases inside : isAmount n = true
    · rw [dif_pos inside, if_pos (isAmount_iff.mp inside)]
      rfl
    · rw [dif_neg inside, if_neg (mt isAmount_iff.mpr inside)]
      split <;> rfl

end Check

/-- The part of a form that a number is held in. -/
def NumberAsked.part (asked : NumberAsked) (n : Int) : String × Value := (asked.name, .int n)

/-- The forms that ask for numbers check them one by one, in order, and hold them under their
names. -/
theorem Form.check_eq_all {form : Form} (numeric : form ∈ [draft, newAmount, change])
    (data : Fields) :
    form.check data = (Verdict.all (form.numbers.map fun asked => asked.verdict data)).map
      (form.numbers.zipWith NumberAsked.part) := by
  have owner : ∀ name, (NumberAsked.key name).verdict data =
      (required data name key).map Key.val :=
    fun name => (map_field Key.val data name none map_key).symm
  simp only [List.mem_cons, List.not_mem_nil, or_false] at numeric
  rcases numeric with rfl | rfl | rfl
  · have sum : NumberAsked.verdict ⟨"amount", 0, amountHigh, some 0⟩ data =
        (field data "amount" (some Amount.nothing) Check.amount).map Amount.val :=
      (map_field Amount.val data "amount" (some Amount.nothing) map_amount).symm
    show (Draft.check data).map Draft.fields = _
    simp only [numbers, List.map_cons, List.map_nil, owner, sum, Draft.check, Owner.check,
      Verdict.all]
    generalize required data "miner_id" key = miner
    generalize required data "pool_id" key = pool
    generalize required data "challenge_id" key = challenge
    generalize field data "amount" (some Amount.nothing) Check.amount = amount
    cases miner <;> cases pool <;> cases challenge <;> cases amount <;>
      simp [Verdict.both, Except.map, Draft.fields, Owner.fields, Draft.owner, NumberAsked.part,
        NumberAsked.key, Value.ofKey]
  · have sum : NumberAsked.verdict ⟨"amount", 0, amountHigh, none⟩ data =
        (required data "amount" Check.amount).map Amount.val :=
      (map_field Amount.val data "amount" none map_amount).symm
    show (checkAmount data).map _ = _
    simp only [numbers, List.map_cons, List.map_nil, sum, checkAmount, Verdict.all]
    cases required data "amount" Check.amount <;> rfl
  · have difference : NumberAsked.verdict ⟨"delta", -amountHigh, amountHigh, none⟩ data =
        checkDelta data := rfl
    show (checkDelta data).map _ = _
    simp only [numbers, List.map_cons, List.map_nil, difference, Verdict.all]
    cases checkDelta data <;> rfl

/-- How the check of a form ends: with all its numbers, or with the error of its faults. -/
theorem Form.outcome_approve {form : Form} (numeric : form ∈ [draft, newAmount, change])
    {data : Fields} (free : clashing data = false) (event : String) :
    (∃ values, List.Forall₂ (fun asked n => asked.Takes data n) form.numbers values ∧
      (approve form.check event data).outcome =
        .ok (form.numbers.zipWith NumberAsked.part values)) ∨
    ∃ issue issues, Faults data form.numbers (issue :: issues) ∧
      (approve form.check event data).outcome =
        .error (errorOfIssues (issue :: issues)).raised := by
  rw [outcome_approve_of_free free, form.check_eq_all numeric]
  rcases Faults.of_all data form.numbers with ⟨values, taken, all⟩ | ⟨issue, issues, faults, all⟩
  · rw [all]
    exact .inl ⟨values, taken, rfl⟩
  · rw [all]
    exact .inr ⟨issue, issues, faults, rfl⟩

/-- **The error of a refused form can be made** exactly when a text can show every sum of
money that the request tells. -/
theorem Form.isWorded_of_refused_iff {form : Form} (numeric : form ∈ [draft, newAmount, change])
    {data : Fields} :
    (∀ issues, form.check data = .error issues → (errorOfIssues issues).isWorded = true) ↔
      form.TellsShort data := by
  have short : ∀ asked ∈ form.numbers, asked.isMoney = true → ∀ n,
      asked.low ≤ n ∧ n ≤ asked.high → Text.isShort n = true := by
    intro asked member money n inside
    have within := form.money_within asked member money
    exact isShort_of_within (by omega) (by omega)
  rw [form.check_eq_all numeric]
  simp only [map_eq_error_iff]
  rcases Faults.of_all data form.numbers with ⟨values, taken, all⟩ | ⟨issue, issues, faults, all⟩
  · rw [all]
    refine iff_of_true (by simp) fun asked member money n given => ?_
    obtain ⟨m, -, takes⟩ := exists_of_forall₂_left taken member
    exact short asked member money n (NumberAsked.inside_of_takes takes given)
  · rw [all]
    simp only [Except.error.injEq, forall_eq']
    constructor
    · intro worded asked member money n given
      by_cases inside : asked.low ≤ n ∧ n ≤ asked.high
      · exact short asked member money n inside
      · rw [faults.error_of_exceeds form.money_unique member money ⟨given, inside⟩,
          LedgerError.isWorded_overflow] at worded
        exact worded
    · intro tells
      by_cases sum : ∃ other ∈ issue :: issues, other.isAmountRange = true
      · obtain ⟨other, there, ranged⟩ := sum
        obtain ⟨asked, member, blamed⟩ := faults.blamed_of_mem there
        obtain ⟨money, n, exceeds⟩ := blamed.isAmountRange_iff.mp ranged
        rw [faults.error_of_exceeds form.money_unique member money exceeds,
          LedgerError.isWorded_overflow]
        exact tells asked member money n exceeds.given
      · exact isWorded_errorOfIssues fun other there =>
          Bool.eq_false_iff.mpr fun ranged => sum ⟨other, there, ranged⟩

/-- Numbers that are taken one by one are held one by one. -/
theorem NumberAsked.parts_of_taken {numbers : List NumberAsked} {data : Fields} {values : List Int}
    (taken : List.Forall₂ (fun asked n => asked.Takes data n) numbers values) :
    List.Forall₂ (fun asked part => ∃ n, asked.Takes data n ∧ part = asked.part n) numbers
      (numbers.zipWith part values) := by
  induction taken with
  | nil => exact .nil
  | cons here rest ih => exact .cons ⟨_, here, rfl⟩ ih

/-- A list of numbers with faults has one that cannot be taken. -/
theorem Faults.exists_refused {data : Fields} {numbers : List NumberAsked} {issue : Issue}
    {issues : List Issue} (faults : Faults data numbers (issue :: issues)) :
    ∃ asked ∈ numbers, ¬ ∃ n, asked.Takes data n := by
  generalize whole : issue :: issues = all at faults
  induction faults with
  | nil => cases whole
  | takes taken rest ih =>
    obtain ⟨asked, member, refused⟩ := ih whole
    exact ⟨asked, List.mem_cons_of_mem _ member, refused⟩
  | blames refused blamed rest ih => exact ⟨_, List.mem_cons_self, refused⟩

/-- **How requests are classified.**  Whatever values the names of a request for a new
earning, a new amount or a difference have, and whatever other names there are: it passes
exactly when each number of its form is an integer in range, or has a usual value and is left
out, and holds these numbers and nothing else.  A sum of money that is an integer out of range,
and not too long for a text, is refused as such, with that integer, whatever else is wrong.
Otherwise the request is refused as invalid over the first number that cannot be taken, and the
error says that it must not be missing exactly when the request leaves it out or tells it to be
missing. -/
theorem requests_classified {form : Form} (numeric : form ∈ [Form.draft, .newAmount, .change])
    {data : Fields} (free : clashing data = false) (event : String) :
    ((∃ found, (approve form.check event data).outcome = .ok found) ↔
      ∀ asked ∈ form.numbers, ∃ n, asked.Takes data n) ∧
    (∀ found, (approve form.check event data).outcome = .ok found →
      List.Forall₂ (fun asked part => ∃ n, asked.Takes data n ∧ part = asked.part n)
        form.numbers found) ∧
    (∀ asked ∈ form.numbers, asked.isMoney = true → ∀ n, asked.Exceeds data n →
      Text.isShort n = true →
      (approve form.check event data).outcome = .error (.ledger (.overflow (.int n) .null))) ∧
    ((∀ asked ∈ form.numbers, asked.isMoney = true → ¬ ∃ n, asked.Exceeds data n) →
      ∀ earlier asked later, form.numbers = earlier ++ asked :: later →
        (∀ other ∈ earlier, ∃ n, other.Takes data n) → (¬ ∃ n, asked.Takes data n) →
        ∃ error, (approve form.check event data).outcome = .error (.ledger error) ∧
          error.kind = .invalid ∧ error.field? = some (.text asked.name) ∧
          (error.message = asked.name ++ " must not be null" ↔ asked.Untold data)) := by
  rcases form.outcome_approve numeric free event with
    ⟨values, taken, passed⟩ | ⟨issue, issues, faults, failed⟩
  · have every : ∀ asked ∈ form.numbers, ∃ n, asked.Takes data n := by
      intro asked member
      obtain ⟨n, -, takes⟩ := exists_of_forall₂_left taken member
      exact ⟨n, takes⟩
    refine ⟨iff_of_true ⟨_, passed⟩ every, ?_, ?_, ?_⟩
    · intro found done
      obtain rfl := Except.ok.inj (passed.symm.trans done)
      exact NumberAsked.parts_of_taken taken
    · intro asked member _ n exceeds _
      exact absurd (every asked member) (NumberAsked.not_takes_of_exceeds exceeds)
    · intro _ earlier asked later whole _ refused
      have member : asked ∈ form.numbers := whole ▸ List.mem_append_right _ List.mem_cons_self
      exact absurd (every asked member) refused
  · rw [failed]
    refine ⟨iff_of_false (by simp) ?_, ?_, ?_, ?_⟩
    · intro every
      obtain ⟨asked, member, refused⟩ := faults.exists_refused
      exact refused (every asked member)
    · intro found done
      cases done
    · intro asked member money n exceeds short
      rw [faults.error_of_exceeds form.money_unique member money exceeds]
      rw [LedgerError.raised_of_worded ((LedgerError.isWorded_overflow n).trans short)]
    · intro inside earlier asked later whole taken refused
      rw [whole] at faults inside
      obtain ⟨blame, blamed, same⟩ := faults.error_of_first inside taken refused
      have worded := LedgerError.isWorded_of_invalid blamed.error.1
      rw [same, LedgerError.raised_of_worded worded]
      exact ⟨_, rfl, blamed.error⟩

/-- Three faults of a new earning: the miner comes as a text, the challenge is told to be
missing, and the amount is one too large, which goes before the others.  With an amount in
range the miner decides, and with a miner in range the pool, which is not told at all. -/
theorem large_amount_goes_before_miner_before_pool :
    let data (miner : Value) (amount : Int) : Fields :=
      [("amount", .int amount), ("challenge_id", .null), ("note", .text "x"), ("miner_id", miner)]
    let outcome (miner : Value) (amount : Int) :=
      (approve Form.draft.check "checked" (data miner amount)).outcome
    let large : Int := 18446744073709551616
    (∀ miner amount, clashing (data miner amount) = false) ∧
      outcome (.text "1") large = .error (.ledger (.overflow (.int large) .null)) ∧
      (∃ error, outcome (.text "1") 7 = .error (.ledger error) ∧ error.kind = .invalid ∧
        error.field? = some (.text "miner_id") ∧ error.message ≠ "miner_id must not be null") ∧
      ∃ error, outcome (.int 1) 7 = .error (.ledger error) ∧ error.kind = .invalid ∧
        error.field? = some (.text "pool_id") ∧ error.message = "pool_id must not be null" := by
  intro data outcome large
  have numeric : Form.draft ∈ [Form.draft, .newAmount, .change] := List.mem_cons_self
  have free : ∀ miner amount, clashing (data miner amount) = false := fun _ _ => rfl
  have small : ∀ miner, ∀ asked ∈ Form.draft.numbers, asked.isMoney = true →
      ¬ ∃ n, asked.Exceeds (data miner 7) n := by
    intro miner asked member money exceeds
    obtain ⟨n, given, outside⟩ := exceeds
    obtain rfl := Form.draft.money_unique asked member money
      ⟨"amount", 0, amountHigh, some 0⟩ (by decide) rfl
    obtain rfl : 7 = n := Value.int.inj (Option.some.inj given)
    exact outside (by decide)
  obtain ⟨-, -, exceeding, -⟩ := requests_classified numeric (free (.text "1") large) "checked"
  obtain ⟨-, -, -, first⟩ := requests_classified numeric (free (.text "1") 7) "checked"
  obtain ⟨-, -, -, second⟩ := requests_classified numeric (free (.int 1) 7) "checked"
  refine ⟨free, exceeding ⟨"amount", 0, amountHigh, some 0⟩ (by decide) rfl _ ⟨rfl, by decide⟩
    (by decide), ?_, ?_⟩
  · obtain ⟨error, failed, kind, named, words⟩ := first (small _) [] _ _ rfl
      (List.forall_mem_nil _) (by
        rintro ⟨n, takes⟩
        cases takes with
        | told given => cases given
        | leftOut absent => cases absent)
    exact ⟨error, failed, kind, named, fun same => nomatch words.mp same⟩
  · obtain ⟨error, failed, kind, named, words⟩ := second (small _) [.key "miner_id"] _ _ rfl
      (List.forall_mem_singleton.mpr ⟨1, .told rfl (by decide) (by decide)⟩) (by
        rintro ⟨n, takes⟩
        cases takes with
        | told given => cases given
        | leftOut absent usual => cases usual)
    exact ⟨error, failed, kind, named, words.mpr (.inl rfl)⟩

/-- Not every sum that is told out of its range is refused with that sum.  A difference that is
told to the form of a new amount is a name like any other, and the amount is what is missing;
and of an amount that is too long for a text no error can be made. -/
theorem stray_and_long_sums_refused_otherwise :
    (approve Form.newAmount.check "checked" [("delta", .int 18446744073709551616)]).outcome =
        .error (.ledger (.invalid (.nullField "amount") (.text "amount"))) ∧
      (approve Form.newAmount.check "checked" [("amount", .int Text.leastLong)]).outcome =
        .error (.fault .tooManyDigits) := by
  have long := Text.isShort_leastLong
  have exceeds : NumberAsked.Exceeds ⟨"amount", 0, amountHigh, none⟩
      [("amount", .int Text.leastLong)] Text.leastLong := by
    refine ⟨rfl, fun inside => Bool.eq_false_iff.mp long ?_⟩
    have below : -amountHigh ≤ 0 := by decide
    exact isShort_of_within (Int.le_trans below inside.1) inside.2
  have numeric : Form.newAmount ∈ [Form.draft, .newAmount, .change] := by simp
  refine ⟨rfl, ?_⟩
  rcases Form.outcome_approve numeric (rfl : clashing [("amount", .int Text.leastLong)] = false)
    "checked" with ⟨values, taken, -⟩ | ⟨issue, issues, faults, failed⟩
  · obtain ⟨n, -, takes⟩ := exists_of_forall₂_left taken List.mem_cons_self
    exact absurd ⟨n, takes⟩ (NumberAsked.not_takes_of_exceeds exceeds)
  · rw [failed, faults.error_of_exceeds Form.newAmount.money_unique List.mem_cons_self rfl exceeds,
      LedgerError.raised_of_unworded ((LedgerError.isWorded_overflow _).trans long)]

end EarningsLedger
