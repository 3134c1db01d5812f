import EarningsLedger.Text.Digits

/-!
# Rounding of ratios

Exact decimal output asks for one operation: the integer nearest to a ratio of
naturals. `roundHalfEven` sends a tie to the even neighbour and `roundHalfUp` away
from zero.
-/

namespace EarningsLedger.Number

/-- The integer nearest to a ratio; a tie goes to the even neighbour. -/
def roundHalfEven (num den : Nat) : Nat :=
  let below := num / den
  let rest := num % den
  if 2 * rest < den then below
  else if den < 2 * rest then below + 1
  else if below % 2 = 0 then below else below + 1

/-- The integer nearest to a ratio; a tie goes up. -/
def roundHalfUp (num den : Nat) : Nat :=
  (2 * num + den) / (2 * den)

/-- A ratio times a power of two, as a ratio again. -/
def scaleTwo (num den : Nat) : Int → Nat × Nat
  | .ofNat k => (num * Text.twoPow k, den)
  | .negSucc k => (num, den * Text.twoPow (k + 1))

/-- A ratio times a power of ten, as a ratio again. -/
def scaleTen (num den : Nat) : Int → Nat × Nat
  | .ofNat k => (num * Text.tenPow k, den)
  | .negSucc k => (num, den * Text.tenPow (k + 1))

end EarningsLedger.Number
