import EarningsLedger.Number.Binary64
import EarningsLedger.Text.Blank
import EarningsLedger.Text.DecimalDigit

/-!
# Numerals

A numeral is a number as it is written: a sign, the digits without the point, and a
power of ten. `Numeral.read` accepts exactly one sign, digits with at most one point
among or beside them, and an exponent. The words for infinity and for the missing
number are kept apart in `Written`, which also allows blanks around the number and
single underscores between digits.
-/

namespace EarningsLedger.Number

open Text

/-- A finite number as written. -/
structure Numeral where
  negative : Bool
  coefficient : Nat
  exponent : Int
  deriving DecidableEq, Repr

namespace Numeral

/-- A sign in front, and what follows it. -/
def sign : List Char → Bool × List Char
  | '-' :: rest => (true, rest)
  | '+' :: rest => (false, rest)
  | rest => (false, rest)

/-- A signed exponent after its letter, or nothing at all. -/
def exponentOf : List Char → Option Int
  | [] => some 0
  | c :: rest =>
    if c = 'e' ∨ c = 'E' then
      let signed := sign rest
      (readNat signed.2).map fun n => if signed.1 then -Int.ofNat n else Int.ofNat n
    else none

/-- The digits after a point, and what follows them. -/
def fractionOf : List Char → List Char × List Char
  | '.' :: rest => spanDigits rest
  | rest => ([], rest)

/-- Reads a numeral, and nothing else. -/
def read (cs : List Char) : Option Numeral :=
  let signed := sign cs
  let whole := spanDigits signed.2
  let fraction := fractionOf whole.2
  if whole.1 = [] ∧ fraction.1 = [] then none
  else (exponentOf fraction.2).map fun power =>
    ⟨signed.1, foldDigits 0 (whole.1 ++ fraction.1), power - Int.ofNat fraction.1.length⟩

def toBinary64 (numeral : Numeral) : Binary64 :=
  .ofScientific numeral.negative numeral.coefficient numeral.exponent

end Numeral

/-! ## Loosely written numbers -/

/-- A letter of ASCII in small, any other character as it is. -/
def lowerChar (c : Char) : Char :=
  if 65 ≤ c.toNat ∧ c.toNat ≤ 90 then Char.ofNat (c.toNat + 32) else c

def plainDigit (c : Char) : Char := ((decimalValue? c).map digitChar).getD c

/-- Drops the underscores that stand between two digits; any other makes it fail. -/
def joinDigits : (afterDigit : Bool) → List Char → Option (List Char)
  | _, [] => some []
  | afterDigit, '_' :: c :: rest =>
    if afterDigit && isDigit c then (joinDigits true rest).map (c :: ·) else none
  | _, c :: rest => if c = '_' then none else (joinDigits (isDigit c) rest).map (c :: ·)

/-- Reads a binary number with white space around it, or one of the words for infinity and
for the missing number in letters of either case. -/
def Binary64.read? (text : String) : Option Binary64 :=
  (joinDigits false ((trimBoth isSpace text.toList).map plainDigit)).bind fun cs =>
    let signed := Numeral.sign cs
    let word := String.ofList (signed.2.map lowerChar)
    if word = "inf" ∨ word = "infinity" then some (.infinite signed.1)
    else if word = "nan" then some .nan
    else (Numeral.read cs).map Numeral.toBinary64

end EarningsLedger.Number
