import EarningsLedger.Number.Ratio

/-!
# Binary floating point numbers

A `Binary64` is a number of the 64-bit binary format, kept as an exact product
`mantissa * 2 ^ exponent`, so that everything the library does with one is exact
arithmetic on integers. A finite number has a mantissa below `2 ^ 53` and an
exponent of at least `-1074`; its mantissa reaches `2 ^ 52` unless the exponent
is the least one. `ofRatio` rounds a ratio to the nearest number of the format.
-/

namespace EarningsLedger.Number

/-- A number of the 64-bit binary format. -/
inductive Binary64 where
  | nan
  | infinite (negative : Bool)
  | finite (negative : Bool) (mantissa : Nat) (exponent : Int)
  deriving DecidableEq, Repr

namespace Binary64

/-! ## Rounding to the format -/

/-- The bound of the mantissas, `2 ^ 53`. -/
def mantissaBound : Nat := 9007199254740992

/-- The exponent of the last place of the ratio, no less than the least one. -/
def placeOf (num den : Nat) : Int :=
  let guess := max (Int.ofNat num.log2 - Int.ofNat den.log2 - 53) (-1074)
  let scaled := scaleTwo num den (-guess)
  if mantissaBound ≤ scaled.1 / scaled.2 then guess + 1 else guess

/-- The number of the format nearest to `num / den`; a tie goes to the even
mantissa, and a ratio beyond the largest number is infinite. -/
def ofRatio (negative : Bool) (num den : Nat) : Binary64 :=
  if num = 0 then .finite negative 0 (-1074)
  else
    let place := placeOf num den
    let scaled := scaleTwo num den (-place)
    let mantissa := roundHalfEven scaled.1 scaled.2
    let carried := if mantissa = mantissaBound then (mantissa / 2, place + 1) else (mantissa, place)
    if 971 < carried.2 then .infinite negative else .finite negative carried.1 carried.2

/-- The number nearest to `coefficient * 10 ^ exponent`. Exponents far outside the
format's range are decided by the size of the number alone. -/
def ofScientific (negative : Bool) (coefficient : Nat) (exponent : Int) : Binary64 :=
  let places : Int := (Text.natDigits coefficient).length
  if coefficient = 0 then .finite negative 0 (-1074)
  else if places + exponent > 400 then .infinite negative
  else if places + exponent < -400 then .finite negative 0 (-1074)
  else
    let scaled := scaleTen coefficient 1 exponent
    ofRatio negative scaled.1 scaled.2

/-! ## Exact value -/

def isNegative : Binary64 → Bool
  | nan => false
  | infinite negative => negative
  | finite negative _ _ => negative

/-- The magnitude of a finite number as a ratio. -/
def ratio (mantissa : Nat) (exponent : Int) : Nat × Nat := scaleTwo mantissa 1 exponent

/-- The integer part of a finite number, toward zero, and whether anything is left. -/
def truncate (negative : Bool) (mantissa : Nat) (exponent : Int) : Int × Bool :=
  let value := ratio mantissa exponent
  let whole : Int := Int.ofNat (value.1 / value.2)
  (if negative then -whole else whole, value.1 % value.2 != 0)

/-- The integer a finite number is equal to, when it is one. -/
def toInt? : Binary64 → Option Int
  | finite negative mantissa exponent =>
    let parts := truncate negative mantissa exponent
    if parts.2 then none else some parts.1
  | _ => none

/-- Whether the number is zero, of either sign. -/
def isZero : Binary64 → Bool
  | finite _ mantissa _ => mantissa == 0
  | _ => false

end Binary64

end EarningsLedger.Number
