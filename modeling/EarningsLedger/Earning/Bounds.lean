/-!
# Ranges of the ledger's numbers

Miners, pools and challenges are numbered by signed 32-bit integers, and so are the
identifiers that callers may ask for. Amounts are unsigned 64-bit integers, while the
table keeps signed ones: the largest storable amount is below the largest amount.
-/

namespace EarningsLedger

/-! ## Bounds -/

def keyLow : Int := -2147483648

def keyHigh : Int := 2147483647

def amountHigh : Int := 18446744073709551615

def storedHigh : Int := 9223372036854775807

def storedLow : Int := -9223372036854775808

def isKey (n : Int) : Bool := keyLow ≤ n && n ≤ keyHigh

def isAmount (n : Int) : Bool := 0 ≤ n && n ≤ amountHigh

def isStorable (n : Int) : Bool := storedLow ≤ n && n ≤ storedHigh

theorem isKey_iff {n : Int} : isKey n = true ↔ keyLow ≤ n ∧ n ≤ keyHigh := by
  simp only [isKey, Bool.and_eq_true, decide_eq_true_eq]

theorem isAmount_iff {n : Int} : isAmount n = true ↔ 0 ≤ n ∧ n ≤ amountHigh := by
  simp only [isAmount, Bool.and_eq_true, decide_eq_true_eq]

theorem isStorable_iff {n : Int} : isStorable n = true ↔ storedLow ≤ n ∧ n ≤ storedHigh := by
  simp only [isStorable, Bool.and_eq_true, decide_eq_true_eq]

/-! ## Ranged numbers -/

/-- The number of a miner, a pool or a challenge. -/
structure Key where
  val : Int
  inRange : isKey val = true
  deriving DecidableEq, Repr

/-- A sum of money in base units. -/
structure Amount where
  val : Int
  inRange : isAmount val = true
  deriving DecidableEq, Repr

namespace Key

/-- A key lies in the range of keys. -/
theorem bounds (k : Key) : keyLow ≤ k.val ∧ k.val ≤ keyHigh := by
  simpa [isKey] using k.inRange

end Key

namespace Amount

def nothing : Amount := ⟨0, by decide⟩

/-- An amount lies in the range of amounts. -/
theorem bounds (a : Amount) : 0 ≤ a.val ∧ a.val ≤ amountHigh := by
  simpa [isAmount] using a.inRange

end Amount

end EarningsLedger
