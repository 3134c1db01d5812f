import EarningsLedger.Text.Blank
import EarningsLedger.Text.DecimalDigit
import EarningsLedger.Text.Digits

/-!
# Integers written for columns

A column of integers takes a text with white space around the number, a sign, digits of any
script and single underscores between digits. More than 4300 digits are refused before
anything behind them is looked at.
-/

namespace EarningsLedger.Number.ColumnInt

open Text

/-- Why a text is no integer. -/
inductive Trouble where
  | unreadable
  | tooLong (digits : Nat)
  deriving DecidableEq, Repr

/-- The values of the digits in front, with single underscores between them, and what
follows. -/
def digitsOf (valueOf : Char → Option Nat) : List Char → List Nat × List Char
  | [] => ([], [])
  | c :: rest =>
    match valueOf c with
    | some v =>
      let inner := digitsOf valueOf rest
      (v :: inner.1, inner.2)
    | none =>
      if c = '_' then
        match rest with
        | d :: _ => if (valueOf d).isSome then digitsOf valueOf rest else ([], c :: rest)
        | [] => ([], ['_'])
      else ([], c :: rest)

def numberOf (digits : List Nat) : Nat := digits.foldl (fun n d => 10 * n + d) 0

/-- Reads the integer in a column's text, with blanks and digits as the two classes say. -/
def read (blank : Char → Bool) (valueOf : Char → Option Nat) (cs : List Char) :
    Except Trouble Int :=
  let trimmed := trimBoth blank cs
  let signed := match trimmed with
    | '-' :: rest => (true, rest)
    | '+' :: rest => (false, rest)
    | rest => (false, rest)
  let startsWell := ((signed.2.head?).bind valueOf).isSome
  let found := digitsOf valueOf signed.2
  if ¬ startsWell then .error .unreadable
  else if mostDigits < found.1.length then .error (.tooLong found.1.length)
  else if found.2 ≠ [] then .error .unreadable
  else
    let n := Int.ofNat (numberOf found.1)
    .ok (if signed.1 then -n else n)

/-- A white space character of ASCII, for texts made of bytes. -/
def asciiBlank (c : Char) : Bool := isSpace c && c.toNat < 128

/-- The value of an ASCII digit, for texts made of bytes. -/
def asciiValue? (c : Char) : Option Nat := if isDigit c then some (digitValue c) else none

def ofText (s : String) : Except Trouble Int := read isSpace decimalValue? s.toList

/-- Reads the integer in a run of bytes. -/
def ofBytes (data : List UInt8) : Except Trouble Int :=
  read asciiBlank asciiValue? (data.map fun b => Char.ofNat b.toNat)

end EarningsLedger.Number.ColumnInt
