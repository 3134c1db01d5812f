/-!
# Decimal digits

Numbers are written in decimal everywhere in the library: in messages, stored
timestamps, log lines and schema text. This module holds the writer and the
matching reader over lists of characters. `natDigits` never writes a leading
zero; `padDigits` writes a fixed number of places, which is what calendar fields
need; `readNat` accepts exactly the nonempty runs of ASCII digits.

A text shows integers of at most `mostDigits` digits. Whoever makes a text of an integer
asks `isShort` first, and complains with `tooManyDigits` about a longer one.
-/

namespace EarningsLedger.Text

/-! ## Writing -/

/-- The character of the last decimal place of a number. -/
def digitChar (n : Nat) : Char := Char.ofNat (48 + n % 10)

/-- A natural number in decimal, without leading zeros. -/
def natDigits (n : Nat) : List Char :=
  if n < 10 then [digitChar n] else natDigits (n / 10) ++ [digitChar n]
termination_by n

/-- An integer in decimal, with a minus sign when it is negative. -/
def intDigits : Int → List Char
  | .ofNat n => natDigits n
  | .negSucc n => '-' :: natDigits (n + 1)

/-- The last `places` decimal places of a number, zeros included. -/
def padDigits : (places : Nat) → Nat → List Char
  | 0, _ => []
  | places + 1, n => padDigits places (n / 10) ++ [digitChar n]

def intText (n : Int) : String := String.ofList (intDigits n)

def natText (n : Nat) : String := String.ofList (natDigits n)

/-! ## The longest numbers -/

def tenPow (k : Nat) : Nat := Nat.pow 10 k

/-- The most digits of an integer that a text shows, or is read from. -/
def mostDigits : Nat := 4300

/-- The complaint about an integer that no text shows. -/
def tooManyDigits : String :=
  "Exceeds the limit (4300 digits) for integer string conversion; " ++
    "use sys.set_int_max_str_digits() to increase the limit"

/-- Whether a number has so many digits at most. -/
def hasAtMost : (places : Nat) → Nat → Bool
  | 0, _ => false
  | places + 1, n => n < 10 || hasAtMost places (n / 10)

/-- Whether a text can show an integer. -/
def isShort (n : Int) : Bool := hasAtMost mostDigits n.natAbs

/-- The digits of a number are counted as they are written. -/
theorem hasAtMost_iff {places n : Nat} :
    hasAtMost places n = true ↔ (natDigits n).length ≤ places := by
  induction places generalizing n with
  | zero =>
    unfold natDigits
    split <;> simp [hasAtMost]
  | succ places ih =>
    unfold natDigits hasAtMost
    split
    · next small => simp [small]
    · next large => simp [large, ih]

theorem tenPow_le {a b : Nat} (le : a ≤ b) : tenPow a ≤ tenPow b :=
  Nat.pow_le_pow_right (by decide) le

theorem hasAtMost_iff_lt {places n : Nat} (some : 0 < places) :
    hasAtMost places n = true ↔ n < tenPow places := by
  induction places generalizing n with
  | zero => cases some
  | succ places ih =>
    have pow : tenPow (places + 1) = tenPow places * 10 := rfl
    rw [hasAtMost, Bool.or_eq_true, decide_eq_true_eq, pow]
    rcases Nat.eq_zero_or_pos places with rfl | more
    · simp [hasAtMost, tenPow]
    · have large : 1 ≤ tenPow places := tenPow_le (Nat.zero_le places)
      rw [ih more]
      omega

/-- A text shows the integers that have at most so many digits, whatever their sign. -/
theorem isShort_iff_length {n : Int} :
    isShort n = true ↔ (natDigits n.natAbs).length ≤ mostDigits := hasAtMost_iff

/-- They are those below the least power of ten that has too many. -/
theorem isShort_iff {n : Int} : isShort n = true ↔ n.natAbs < tenPow mostDigits :=
  hasAtMost_iff_lt (by decide)

/-- The least number that no text shows. -/
def leastLong : Int := (tenPow mostDigits : Nat)

theorem isShort_leastLong : isShort leastLong = false := by
  rw [Bool.eq_false_iff, ne_eq, isShort_iff, leastLong, Int.natAbs_natCast]
  exact Nat.lt_irrefl (tenPow mostDigits)

theorem isShort_of_lt {n : Int} {places : Nat} (few : places ≤ mostDigits)
    (below : n.natAbs < tenPow places) : isShort n = true :=
  isShort_iff.mpr (Nat.lt_of_lt_of_le below (tenPow_le few))

/-! ## Reading -/

/-- Whether a character is one of the ten ASCII digits. -/
def isDigit (c : Char) : Bool := 48 ≤ c.toNat && c.toNat ≤ 57

def digitValue (c : Char) : Nat := c.toNat - 48

/-- The number a run of digits denotes, continuing from the digits already read. -/
def foldDigits (start : Nat) (digits : List Char) : Nat :=
  digits.foldl (fun value c => 10 * value + digitValue c) start

/-- Reads a nonempty run of ASCII digits, and nothing else. -/
def readNat (cs : List Char) : Option Nat :=
  if cs ≠ [] && cs.all isDigit then some (foldDigits 0 cs) else none

/-- The longest run of digits in front, and what follows it. -/
def spanDigits (cs : List Char) : List Char × List Char :=
  (cs.takeWhile isDigit, cs.dropWhile isDigit)

/-! ## Padding and powers -/

def twoPow (k : Nat) : Nat := Nat.pow 2 k

/-- Fills a text on the left up to a width. -/
def padLeft (width : Nat) (fill : Char) (cs : List Char) : List Char :=
  List.replicate (width - cs.length) fill ++ cs

/-- Fills a text on the right up to a width. -/
def padRight (width : Nat) (fill : Char) (cs : List Char) : List Char :=
  cs ++ List.replicate (width - cs.length) fill

end EarningsLedger.Text
