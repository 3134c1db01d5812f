import EarningsLedger.Text.Blank
import EarningsLedger.Text.Digits

/-!
# Integers written in request fields

A field that holds an integer may be filled with a text. White space around the number,
a plus sign, zeros in front, a fraction of zeros and single underscores are allowed; a
number with more than 4300 characters is refused for its size.
-/

namespace EarningsLedger.Number.FieldInt

open Text

/-- Why a text is no integer. -/
inductive Trouble where
  | unreadable
  | tooLong
  deriving DecidableEq, Repr

def longest : Nat := 4300

/-- Drops the zeros and underscores between a leading zero and the first other digit.
The last zero stays when a point follows it, and the last character stays when nothing
else is left. -/
def dropZeros : (last : Char) → List Char → Option (List Char)
  | last, [] => some [last]
  | last, c :: rest =>
    if c = '0' ∨ c = '_' then dropZeros c rest
    else if isDigit c then some (c :: rest)
    else if c = '.' then some (last :: c :: rest)
    else none

/-- Drops zeros in front; a number starts with a digit or a minus sign. -/
def dropLeadingZeros : List Char → Option (List Char)
  | [] => none
  | c :: rest =>
    if c = '0' then dropZeros c rest
    else if isDigit c ∨ c = '-' then some (c :: rest)
    else none

/-- Drops a plus sign in front; a minus sign may not follow it. -/
def dropPlus : List Char → Option (List Char)
  | '+' :: '-' :: _ => none
  | '+' :: rest => some rest
  | cs => some cs

def dropZeroFraction (cs : List Char) : List Char :=
  let fraction := (cs.dropWhile (· != '.')).drop 1
  if fraction ≠ [] ∧ fraction.all (· == '0') then cs.takeWhile (· != '.') else cs

/-- Whether two underscores stand next to each other. -/
def doubleUnderscore : List Char → Bool
  | '_' :: '_' :: _ => true
  | _ :: rest => doubleUnderscore rest
  | [] => false

/-- Drops underscores, unless one is first or last or next to another. -/
def dropUnderscores (cs : List Char) : List Char :=
  if cs.head? = some '_' ∨ cs.getLast? = some '_' ∨ doubleUnderscore cs then cs
  else cs.filter (· != '_')

def clean? (cs : List Char) : Option (List Char) :=
  ((dropPlus (trimBoth isSpace cs)).bind dropLeadingZeros).map fun number =>
    dropUnderscores (dropZeroFraction number)

/-- The value of digits without needless zeros in front. -/
def plainNat (cs : List Char) : Option Nat :=
  match cs with
  | '0' :: _ :: _ => none
  | digits => readNat digits

def plainInt : List Char → Option Int
  | '-' :: digits => (plainNat digits).map fun n => -Int.ofNat n
  | digits => (plainNat digits).map Int.ofNat

def read (cs : List Char) : Except Trouble Int :=
  match clean? cs with
  | none => .error .unreadable
  | some number =>
    if longest < number.length then .error .tooLong
    else (plainInt number).elim (.error .unreadable) .ok

end EarningsLedger.Number.FieldInt
