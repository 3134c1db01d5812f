import EarningsLedger.Check.Issue

/-!
# Verdicts

A check either yields what it checked or lists every issue it found. Verdicts of
several parts are combined with `both`, which keeps the issues of all parts in order:
a request with two faults is told both.
-/

namespace EarningsLedger.Check

/-- What a check comes to. -/
abbrev Verdict (α : Type) := Except (List Issue) α

namespace Verdict

variable {α β γ : Type}

/-- A check that found a single thing wrong with a value. -/
def fail (cause : Cause) (input : Value) : Verdict α := .error [⟨[], cause, input⟩]

/-- Two verdicts together; the issues of the first come first. -/
def both (left : Verdict α) (right : Verdict β) : Verdict (α × β) :=
  match left, right with
  | .ok a, .ok b => .ok (a, b)
  | .ok _, .error issues => .error issues
  | .error issues, .ok _ => .error issues
  | .error issues, .error more => .error (issues ++ more)

/-- The verdict on a part, seen from the whole. -/
def under (step : PathStep) (verdict : Verdict α) : Verdict α :=
  verdict.mapError (List.map (Issue.under step))

/-- The verdicts on all items of a list, together. -/
def all : List (Verdict α) → Verdict (List α)
  | [] => .ok []
  | verdict :: rest => (both verdict (all rest)).map fun found => found.1 :: found.2

/-- Two checks succeed together exactly when both succeed. -/
theorem both_eq_ok {left : Verdict α} {right : Verdict β} {found : α × β} :
    both left right = .ok found ↔ left = .ok found.1 ∧ right = .ok found.2 := by
  rcases found with ⟨a, b⟩
  cases left <;> cases right <;> simp [both]

end Verdict

end EarningsLedger.Check
