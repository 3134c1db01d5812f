import EarningsLedger.Number.Binary64

/-!
# Shortest decimal digits

`shortest` gives the fewest decimal digits that read back as the same binary
number, and of those the nearest to it. The numbers that read back form an
interval around the value that reaches half way to each neighbour, ends included
when the mantissa is even. For each count of digits from one to seventeen the two
decimals around the value are tried; the first count with a hit wins, and of two
hits the nearer one.
-/

namespace EarningsLedger.Number

/-- Decimal digits with the point `point` places after the first digit's left:
the value is `0.digits * 10 ^ point`. -/
structure Scientific where
  digits : Nat
  point : Int
  deriving DecidableEq, Repr

namespace Shortest

/-- The power of ten just above a positive ratio: `10 ^ (k - 1) ≤ num / den < 10 ^ k`. -/
def magnitude (num den : Nat) : Int :=
  if den ≤ num then (Text.natDigits (num / den)).length
  else
    let places := (Text.natDigits (den / num)).length
    if den ≤ num * Text.tenPow (places - 1) then 2 - Int.ofNat places
    else 1 - Int.ofNat places

/-- The ends of the interval that rounds to `mantissa * 2 ^ exponent`, as multiples of
a quarter of the last place. -/
def quarters (mantissa : Nat) (exponent : Int) : Nat × Nat :=
  let lowest := mantissa = 4503599627370496 && exponent != -1074
  (if lowest then 4 * mantissa - 1 else 4 * mantissa - 2, 4 * mantissa + 2)

/-- Whether `candidate * 10 ^ place` reads back as `mantissa * 2 ^ exponent`. -/
def readsBack (mantissa : Nat) (exponent : Int) (candidate : Nat) (place : Int) : Bool :=
  let ends := quarters mantissa exponent
  let tens := scaleTen candidate 1 place
  let scaled := scaleTwo tens.1 tens.2 (2 - exponent)
  let low := ends.1 * scaled.2
  let high := ends.2 * scaled.2
  if mantissa % 2 = 0 then low ≤ scaled.1 && scaled.1 ≤ high
  else low < scaled.1 && scaled.1 < high

/-- The better of the two decimals with the given last place that surround the value. -/
def candidate? (mantissa : Nat) (exponent : Int) (place : Int) : Option Nat :=
  let value := Binary64.ratio mantissa exponent
  let scaled := scaleTen value.1 value.2 (-place)
  let below := scaled.1 / scaled.2
  let nearest := roundHalfEven scaled.1 scaled.2
  let other := if nearest = below then below + 1 else below
  if readsBack mantissa exponent nearest place then some nearest
  else if readsBack mantissa exponent other place then some other
  else none

/-- Tries `count` digits, then one more, while tries are left. -/
def search (mantissa : Nat) (exponent : Int) (top : Int) : (tries count : Nat) → Nat × Int
  | 0, count =>
    let place := top - Int.ofNat count
    ((candidate? mantissa exponent place).getD 0, place)
  | tries + 1, count =>
    let place := top - Int.ofNat count
    match candidate? mantissa exponent place with
    | some found => (found, place)
    | none => search mantissa exponent top tries (count + 1)

/-- Takes zeros off the end of a number, moving the place along. -/
def stripZeros (n : Nat) (place : Int) : Nat × Int :=
  if 0 < n ∧ n % 10 = 0 then stripZeros (n / 10) (place + 1) else (n, place)
termination_by n
decreasing_by omega

end Shortest

/-- The fewest digits that read back as `mantissa * 2 ^ exponent`, for a positive
mantissa. -/
def shortest (mantissa : Nat) (exponent : Int) : Scientific :=
  let value := Binary64.ratio mantissa exponent
  let found := Shortest.search mantissa exponent (Shortest.magnitude value.1 value.2) 16 1
  let stripped := Shortest.stripZeros found.1 found.2
  ⟨stripped.1, stripped.2 + Int.ofNat (Text.natDigits stripped.1).length⟩

end EarningsLedger.Number
