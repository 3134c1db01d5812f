import EarningsLedger.Number.Numeral
import EarningsLedger.Text.Digits

/-!
# Decimal numbers

A `Decimal` keeps its coefficient and its power of ten apart, so trailing zeros are
part of the number. The text shows the coefficient's digits with the point in place
unless the power is positive or the number is below a millionth.
-/

namespace EarningsLedger.Number

open Text

/-- A decimal number, an infinity, or a missing number with its diagnostic payload. -/
inductive Decimal where
  | finite (negative : Bool) (coefficient : Nat) (exponent : Int)
  | infinite (negative : Bool)
  | nan (negative signaling : Bool) (payload : Nat)
  deriving DecidableEq, Repr

namespace Decimal

def ofInt (n : Int) : Decimal := .finite (decide (n < 0)) n.natAbs 0

/-! ## Reading -/

/-- A missing number with an optional payload after its name. -/
def nanOf (negative signaling : Bool) : List Char → Option Decimal
  | [] => some (.nan negative signaling 0)
  | digits => (readNat digits).map (.nan negative signaling)

/-- A number without digits in small letters, after its sign. -/
def word? (negative : Bool) : List Char → Option Decimal
  | 's' :: 'n' :: 'a' :: 'n' :: rest => nanOf negative true rest
  | 'n' :: 'a' :: 'n' :: rest => nanOf negative false rest
  | cs =>
    if String.ofList cs = "inf" ∨ String.ofList cs = "infinity" then some (.infinite negative)
    else none

/-- Reads a decimal number with blanks around it and underscores anywhere in it. -/
def read? (text : String) : Option Decimal :=
  let cs := ((trimBoth isBlank text.toList).filter (· != '_')).map plainDigit
  match Numeral.read cs with
  | some numeral => some (.finite numeral.negative numeral.coefficient numeral.exponent)
  | none =>
    let signed := Numeral.sign cs
    word? signed.1 (signed.2.map lowerChar)

/-! ## Text -/

def signChars (negative : Bool) : List Char := if negative then ['-'] else []

/-- Digits with the point `point` places from their left end. -/
def pointed (digits : List Char) (point : Int) : List Char :=
  if point ≤ 0 then '0' :: '.' :: (List.replicate point.natAbs '0' ++ digits)
  else if (digits.length : Int) ≤ point then
    digits ++ List.replicate (point.toNat - digits.length) '0'
  else digits.take point.toNat ++ '.' :: digits.drop point.toNat

/-- The digits of a finite number, with an exponent when it needs one. -/
def finiteChars (coefficient : Nat) (exponent : Int) : List Char :=
  let digits := natDigits coefficient
  let point : Int := exponent + digits.length
  if exponent ≤ 0 ∧ -6 < point then pointed digits point
  else
    let power := point - 1
    pointed digits 1 ++ 'E' :: (if power < 0 then '-' else '+') :: natDigits power.natAbs

def chars : Decimal → List Char
  | finite negative coefficient exponent =>
    signChars negative ++ finiteChars coefficient exponent
  | infinite negative => signChars negative ++ "Infinity".toList
  | nan negative signaling payload =>
    signChars negative ++ (if signaling then "sNaN" else "NaN").toList ++
      (if payload = 0 then [] else natDigits payload)

def text (d : Decimal) : String := String.ofList d.chars

/-! ## Exact value -/

/-- The integer part of a finite number, toward zero, and whether anything is left. -/
def truncate (negative : Bool) (coefficient : Nat) (exponent : Int) : Int × Bool :=
  let value := scaleTen coefficient 1 exponent
  let whole : Int := Int.ofNat (value.1 / value.2)
  (if negative then -whole else whole, value.1 % value.2 != 0)

/-- The integer a finite number is equal to, when it is one. -/
def toInt? : Decimal → Option Int
  | finite negative coefficient exponent =>
    let parts := truncate negative coefficient exponent
    if parts.2 then none else some parts.1
  | _ => none

/-- The binary number nearest to a decimal one. -/
def toBinary64 : Decimal → Binary64
  | finite negative coefficient exponent => .ofScientific negative coefficient exponent
  | infinite negative => .infinite negative
  | nan _ _ _ => .nan

/-- Whether the number is zero, of either sign. -/
def isZero : Decimal → Bool
  | finite _ coefficient _ => coefficient == 0
  | _ => false

end Decimal

end EarningsLedger.Number
